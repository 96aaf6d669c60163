import Mathlib.Tactic.IntervalCases
import Mathlib.Tactic.Linarith
import Mathlib.Tactic.Ring
import ShadowDataPlane.Central.SelectionWellFormed
import ShadowDataPlane.Foundation.OrderStatistics

/-!
# Percentiles

`_median` and `_percentile` sort the values and interpolate between neighbours,
by two rules: the median by the parity of the number of values, the percentile
by the remainder of its position.  The policy has a floor for the minimum, one
for the lower quartile and one for the median of the same values, in this
order, and takes for granted that the figures are in this order too.

They are, in exact arithmetic (`orderStatistics_consistent`), and so are the
figures of every historical row (`historicalRow_ordered`).
-/

namespace ShadowDataPlane.Central

open ShadowDataPlane.Foundation
open DecimalArithmetic

/-! ## Indices -/

section Checked

variable {δ : Type} [DecimalArithmetic δ]

/-- `_median`, or nothing when it raises `IndexError`. -/
def checkedMedian (values : List δ) : Option δ :=
  let ordered := sortDecimals values
  let midpoint := ordered.length / 2
  if ordered.length % 2 ≠ 0 then ordered[midpoint]?
  else
    match ordered[midpoint - 1]?, ordered[midpoint]? with
    | some left, some right => some (div (add left right) (ofInteger 2))
    | _, _ => none

/-- `_percentile`, or nothing when it raises `IndexError`. -/
def checkedPercentile (values : List δ) (numerator denominator : Nat) :
    Option δ :=
  let ordered := sortDecimals values
  let positionNumerator := (ordered.length - 1) * numerator
  let lower := positionNumerator / denominator
  let remainder := positionNumerator % denominator
  if remainder = 0 then ordered[lower]?
  else
    match ordered[lower]?, ordered[lower + 1]? with
    | some left, some right =>
        some (div (add (mul left (ofInteger (denominator - remainder)))
          (mul right (ofInteger remainder))) (ofInteger denominator))
    | _, _ => none

theorem length_sortDecimals (values : List δ) :
    (sortDecimals values).length = values.length :=
  List.length_insertionSort _ values

theorem getElem?_sortDecimals
    {values : List δ} {index : Nat} (inRange : index < values.length) :
    (sortDecimals values)[index]? =
      some ((sortDecimals values).getD index (ofInteger 0)) := by
  rw [← length_sortDecimals] at inRange
  rw [List.getD_eq_getElem _ _ inRange, List.getElem?_eq_getElem inRange]

/-- `_median` finds its values. -/
theorem checkedMedian_eq {values : List δ} (nonempty : values ≠ []) :
    checkedMedian values = some (median values) := by
  have positive := List.length_pos_of_ne_nil nonempty
  have midpoint : (sortDecimals values).length / 2 < values.length := by
    rw [length_sortDecimals]
    omega
  have before : (sortDecimals values).length / 2 - 1 < values.length := by
    omega
  simp only [checkedMedian, median, getElem?_sortDecimals midpoint,
    getElem?_sortDecimals before]
  split <;> rfl

/-- The position of a percentile is at most that of the last value. -/
theorem percentile_inRange
    {count numerator denominator : Nat} (positive : 0 < count)
    (le : numerator ≤ denominator) :
    (count - 1) * numerator / denominator < count ∧
      ((count - 1) * numerator % denominator ≠ 0 →
        (count - 1) * numerator / denominator + 1 < count) := by
  have bound : (count - 1) * numerator ≤ denominator * (count - 1) := by
    rw [Nat.mul_comm denominator]
    exact Nat.mul_le_mul_left _ le
  have quotient := Nat.div_le_of_le_mul bound
  refine ⟨by omega, ?_⟩
  intro remains
  have divided := Nat.div_add_mod ((count - 1) * numerator) denominator
  have before : (count - 1) * numerator / denominator < count - 1 := by
    by_contra notBefore
    have same : (count - 1) * numerator / denominator = count - 1 := by omega
    rw [same] at divided
    omega
  omega

/-- `_percentile` finds its values. -/
theorem checkedPercentile_eq
    {values : List δ} (nonempty : values ≠ [])
    {numerator denominator : Nat} (le : numerator ≤ denominator) :
    checkedPercentile values numerator denominator =
      some (percentile values numerator denominator) := by
  rcases percentile_inRange (List.length_pos_of_ne_nil nonempty) le with
    ⟨lower, upper⟩
  simp only [checkedPercentile, percentile, length_sortDecimals,
    getElem?_sortDecimals lower]
  split
  next => rfl
  next remains => simp only [getElem?_sortDecimals (upper remains)]

end Checked

/-! ## Exact figures -/

/-- The value of a rank. -/
def ranked (values : List ℚ) (rank : Nat) : ℚ := orderStatistic 0 values rank

@[simp]
theorem ofInteger_rational (value : Int) : (ofInteger value : ℚ) = value := by
  simp [ofInteger, ofScaled]

theorem median_eq (values : List ℚ) :
    median values =
      if values.length % 2 ≠ 0 then ranked values (values.length / 2)
      else
        (ranked values (values.length / 2 - 1) +
          ranked values (values.length / 2)) / 2 := by
  simp only [median, length_sortDecimals, ofInteger_rational, Int.cast_zero]
  rfl

/-- The lower quartile, by the remainder of the last index. -/
theorem quartile_eq (values : List ℚ) :
    percentile values 1 4 =
      (ranked values ((values.length - 1) / 4) *
          (4 - ((values.length - 1) % 4 : Nat)) +
        ranked values ((values.length - 1) / 4 + 1) *
          ((values.length - 1) % 4 : Nat)) / 4 := by
  simp only [percentile, length_sortDecimals, ofInteger_rational, Nat.mul_one]
  split
  next whole =>
    rw [whole]
    push_cast
    show ranked values _ = _
    ring
  next =>
    push_cast
    rfl

/-! ## Bounds -/

section Bounds

variable {values : List ℚ} {bound : ℚ}

theorem le_ranked
    (least : ∀ value ∈ values, bound ≤ value) {rank : Nat}
    (inRange : rank < values.length) : bound ≤ ranked values rank :=
  least _ (orderStatistic_mem inRange)

theorem ranked_le
    (greatest : ∀ value ∈ values, value ≤ bound) {rank : Nat}
    (inRange : rank < values.length) : ranked values rank ≤ bound :=
  greatest _ (orderStatistic_mem inRange)

theorem le_quartile
    (nonempty : values ≠ []) (least : ∀ value ∈ values, bound ≤ value) :
    bound ≤ percentile values 1 4 := by
  have positive := List.length_pos_of_ne_nil nonempty
  have lower : bound ≤ ranked values ((values.length - 1) / 4) :=
    le_ranked least (by omega)
  have below : (values.length - 1) % 4 < 4 := Nat.mod_lt _ (by decide)
  rw [quartile_eq]
  rcases Nat.eq_zero_or_pos ((values.length - 1) % 4) with whole | remains
  · rw [whole]
    push_cast
    linarith
  · have upper : bound ≤ ranked values ((values.length - 1) / 4 + 1) :=
      le_ranked least (by omega)
    have weight : (0 : ℚ) ≤ 4 - ((values.length - 1) % 4 : Nat) := by
      rw [sub_nonneg]
      exact_mod_cast below.le
    have other : (0 : ℚ) ≤ ((values.length - 1) % 4 : Nat) := Nat.cast_nonneg _
    have first := mul_le_mul_of_nonneg_right lower weight
    have second := mul_le_mul_of_nonneg_right upper other
    linarith

theorem median_le
    (nonempty : values ≠ []) (greatest : ∀ value ∈ values, value ≤ bound) :
    median values ≤ bound := by
  have positive := List.length_pos_of_ne_nil nonempty
  have middle : ranked values (values.length / 2) ≤ bound :=
    ranked_le greatest (by omega)
  have before : ranked values (values.length / 2 - 1) ≤ bound :=
    ranked_le greatest (by omega)
  rw [median_eq]
  split
  next => exact middle
  next => linarith

/-- The two rules meet, whatever the number of values leaves modulo four. -/
theorem quartile_le_median (nonempty : values ≠ []) :
    percentile values 1 4 ≤ median values := by
  have positive := List.length_pos_of_ne_nil nonempty
  have up {rank later : Nat} (le : rank ≤ later)
      (inRange : later < values.length) :
      ranked values rank ≤ ranked values later :=
    orderStatistic_le_of_le le inRange
  have remainder : (values.length - 1) % 4 < 4 := Nat.mod_lt _ (by decide)
  rw [quartile_eq, median_eq]
  generalize isRemainder : (values.length - 1) % 4 = rest at *
  generalize isLower : (values.length - 1) / 4 = lower at *
  interval_cases rest
  · rw [if_pos (by omega)]
    have low := @up lower (values.length / 2) (by omega) (by omega)
    push_cast
    linarith
  · rw [if_neg (by omega)]
    have low := @up lower (values.length / 2 - 1) (by omega) (by omega)
    have high := @up (lower + 1) (values.length / 2) (by omega) (by omega)
    have step := @up lower (lower + 1) (by omega) (by omega)
    push_cast
    linarith
  · rw [if_pos (by omega)]
    have high := @up (lower + 1) (values.length / 2) (by omega) (by omega)
    have step := @up lower (lower + 1) (by omega) (by omega)
    push_cast
    linarith
  · rw [if_neg (by omega)]
    have low := @up (lower + 1) (values.length / 2 - 1) (by omega) (by omega)
    have high := @up (lower + 1) (values.length / 2) (by omega) (by omega)
    have step := @up lower (lower + 1) (by omega) (by omega)
    push_cast
    linarith

end Bounds

/-! ## Values which go up -/

section Raised

variable {values others : List ℚ}

theorem median_mono (below : List.Forall₂ (· ≤ ·) values others) :
    median values ≤ median others := by
  have up (rank : Nat) : ranked values rank ≤ ranked others rank :=
    orderStatistic_mono below
  rw [median_eq, median_eq, below.length_eq]
  split
  next => exact up _
  next =>
    have before := up (others.length / 2 - 1)
    have middle := up (others.length / 2)
    linarith

theorem quartile_mono (below : List.Forall₂ (· ≤ ·) values others) :
    percentile values 1 4 ≤ percentile others 1 4 := by
  have up (rank : Nat) : ranked values rank ≤ ranked others rank :=
    orderStatistic_mono below
  rw [quartile_eq, quartile_eq, below.length_eq]
  have remainder : (others.length - 1) % 4 < 4 := Nat.mod_lt _ (by decide)
  have weight : (0 : ℚ) ≤ 4 - ((others.length - 1) % 4 : Nat) := by
    rw [sub_nonneg]
    exact_mod_cast remainder.le
  have lower := mul_le_mul_of_nonneg_right (up ((others.length - 1) / 4)) weight
  have upper := mul_le_mul_of_nonneg_right (up ((others.length - 1) / 4 + 1))
    (Nat.cast_nonneg ((others.length - 1) % 4) : (0 : ℚ) ≤ _)
  linarith

theorem median_perm (perm : values.Perm others) :
    median values = median others := by
  simp only [median_eq, perm.length_eq, ranked, orderStatistic_perm perm]

theorem quartile_perm (perm : values.Perm others) :
    percentile values 1 4 = percentile others 1 4 := by
  simp only [quartile_eq, perm.length_eq, ranked, orderStatistic_perm perm]

end Raised

theorem minimumOf_le
    {α : Type} [LinearOrder α] {first : α} {rest : List α} {value : α}
    (member : value ∈ first :: rest) : minimumOf first rest ≤ value := by
  induction rest generalizing first value with
  | nil => exact (List.mem_singleton.mp member) ▸ le_rfl
  | cons head tail induction =>
      show minimumOf (min first head) tail ≤ value
      have start : minimumOf (min first head) tail ≤ min first head :=
        induction List.mem_cons_self
      rcases List.mem_cons.mp member with rfl | inRest
      · exact start.trans (min_le_left _ _)
      · rcases List.mem_cons.mp inRest with rfl | inTail
        · exact start.trans (min_le_right _ _)
        · exact induction (List.mem_cons_of_mem _ inTail)

theorem le_maximumOf
    {α : Type} [LinearOrder α] {first : α} {rest : List α} {value : α}
    (member : value ∈ first :: rest) : value ≤ maximumOf first rest := by
  induction rest generalizing first value with
  | nil => exact (List.mem_singleton.mp member) ▸ le_rfl
  | cons head tail induction =>
      show value ≤ maximumOf (max first head) tail
      have start : max first head ≤ maximumOf (max first head) tail :=
        induction List.mem_cons_self
      rcases List.mem_cons.mp member with rfl | inRest
      · exact (le_max_left _ _).trans start
      · rcases List.mem_cons.mp inRest with rfl | inTail
        · exact (le_max_right _ _).trans start
        · exact induction (List.mem_cons_of_mem _ inTail)

/--
The lower quartile and the median of some values find all their indices, do not
depend on the order of the values, lie in this order between the smallest and
the largest value, and do not go down when a value goes up.
-/
theorem orderStatistics_consistent (first : ℚ) (rest : List ℚ) :
    let values := first :: rest
    (checkedPercentile values 1 4 = some (percentile values 1 4) ∧
        checkedMedian values = some (median values)) ∧
      (∀ others : List ℚ, others.Perm values →
        percentile others 1 4 = percentile values 1 4 ∧
          median others = median values) ∧
      (minimumOf first rest ≤ percentile values 1 4 ∧
        percentile values 1 4 ≤ median values ∧
          median values ≤ maximumOf first rest) ∧
      ∀ (index : Nat) (raised : ℚ),
        (∀ value ∈ values[index]?, value ≤ raised) →
          percentile values 1 4 ≤ percentile (values.set index raised) 1 4 ∧
            median values ≤ median (values.set index raised) := by
  intro values
  have nonempty : values ≠ [] := List.cons_ne_nil first rest
  refine ⟨⟨?_, checkedMedian_eq nonempty⟩, ?_, ⟨?_, ?_, ?_⟩, ?_⟩
  · exact checkedPercentile_eq nonempty (by decide)
  · exact fun others perm => ⟨quartile_perm perm, median_perm perm⟩
  · exact le_quartile nonempty fun value member => minimumOf_le member
  · exact quartile_le_median nonempty
  · exact median_le nonempty fun value member => le_maximumOf member
  · intro index raised le
    exact ⟨quartile_mono (forall₂_set le), median_mono (forall₂_set le)⟩

/-- The figures of a row are in the order of the floors of the policy. -/
theorem historicalRow_ordered
    {klines : Dict String (List Json)} {cutoffMs : Int} {windowDays : Nat}
    {symbol : String} {raw : Json} {row : HistoricalRow ℚ}
    (built : historicalRow klines cutoffMs windowDays symbol raw =
      .ok (some row)) :
    (row.minimumQuoteVolume ≤ row.q25QuoteVolume ∧
        row.q25QuoteVolume ≤ row.medianQuoteVolume) ∧
      ofInteger row.minimumTrades ≤ row.q25Trades ∧
        row.q25Trades ≤ row.medianTrades := by
  rw [historicalRow] at built
  rcases bind_eq_ok_iff.mp built with ⟨onboardMs, _, built⟩
  rcases bind_eq_ok_iff.mp built with ⟨bars, _, built⟩
  rcases bind_eq_ok_iff.mp built with ⟨volumes, _, built⟩
  rcases bind_eq_ok_iff.mp built with ⟨trades, _, built⟩
  cases volumes with
  | nil => cases built
  | cons firstVolume otherVolumes =>
      cases trades with
      | nil => cases built
      | cons firstTrades otherTrades =>
          cases built
          have someVolumes : firstVolume :: otherVolumes ≠ [] := by simp
          have someTrades : (firstTrades :: otherTrades).map
              (fun value => (ofInteger value : ℚ)) ≠ [] := by simp
          refine ⟨⟨?_, quartile_le_median someVolumes⟩, ?_,
            quartile_le_median someTrades⟩
          · exact le_quartile someVolumes
              fun value member => minimumOf_le member
          · apply le_quartile someTrades
            intro value member
            rcases List.mem_map.mp member with ⟨count, isCount, rfl⟩
            rw [ofInteger_rational, ofInteger_rational]
            exact_mod_cast minimumOf_le isCount

end ShadowDataPlane.Central
