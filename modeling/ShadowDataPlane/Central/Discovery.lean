import Mathlib.Data.List.MinMax
import Mathlib.Data.Prod.Lex
import Mathlib.Order.Lattice
import ShadowDataPlane.Contracts.Universe
import ShadowDataPlane.Foundation.Dict
import ShadowDataPlane.Foundation.Result

/-!
# Discovery evidence

A discovery snapshot holds five JSON documents.  This module reads them as the
selector does: the two `exchangeInfo` documents decide which symbols are
eligible, the daily klines give each eligible symbol its history, and the depth
evidence gives its spread and thin depth.

A document is given decoded, as a `Json` value beside the digest of its bytes.
`DecimalArithmetic` is what the code uses of `decimal.Decimal`, with `int(text)`
beside it; nothing below depends on how it rounds.
-/

namespace ShadowDataPlane.Central

open ShadowDataPlane.Contracts
open ShadowDataPlane.Foundation

/-- A decoded document.  A floating point number is given by its `repr`. -/
inductive Json where
  | null
  | boolean (value : Bool)
  | integer (value : Int)
  | real (repr : String)
  | text (value : String)
  | array (items : List Json)
  | object (members : List (String × Json))

namespace Json

/-- `value.get(name)` for an object; nothing else has members. -/
def get? (name : String) : Json → Option Json
  | .object members => getEntry name members
  | _ => none

/-- Whether the value equals a text. -/
def isText (expected : String) : Option Json → Bool
  | some (.text value) => value = expected
  | _ => false

/-- `str(value)`, where it can be a numeral. -/
def numeral? : Json → Option String
  | .integer value => some (toString value)
  | .real repr => some repr
  | .text value => some value
  | _ => none

end Json

/-- `decimal.Decimal` in its default context, and `int(text)`. -/
class DecimalArithmetic (δ : Type) extends LinearOrder δ where
  /-- A literal: `digits` over a power of ten. -/
  ofScaled : Int → Nat → δ
  infinity : δ
  neg : δ → δ
  add : δ → δ → δ
  sub : δ → δ → δ
  mul : δ → δ → δ
  div : δ → δ → δ
  pow : δ → Nat → δ
  sqrt : δ → δ
  isFinite : δ → Bool
  /-- `Decimal(text)`, or nothing when it raises `InvalidOperation`. -/
  readDecimal : String → Option δ
  /-- `int(text)`, or nothing when it raises `ValueError`. -/
  readInteger : String → Option Int

/-- One of the documents of a snapshot. -/
structure Evidence where
  payload : Json
  sha256 : String

/-- The evidence which one discovery has collected. -/
structure DiscoverySnapshot where
  observedAt : Int
  exchangeInfo : Evidence
  exchangeInfoConfirmation : Evidence
  marketTickers : Evidence
  dailyKlines : Evidence
  liquidityDepth : Evidence

def DiscoverySnapshot.sourceHashes (snapshot : DiscoverySnapshot) :
    List String :=
  [snapshot.exchangeInfo.sha256, snapshot.exchangeInfoConfirmation.sha256,
    snapshot.marketTickers.sha256, snapshot.dailyKlines.sha256,
    snapshot.liquidityDepth.sha256]

/-- Milliseconds in one day: `DAY_MS`. -/
def dayMs : Int := 86400000

/-! ## Eligibility -/

/-- `_symbol_info`: the rows of an `exchangeInfo` document by symbol. -/
def symbolInfo (raw : Json) : Except String (Dict String Json) :=
  match raw.get? "symbols" with
  | some (.array values) =>
      values.foldlM (fun result value =>
        match value.get? "symbol" with
        | some (.text symbol) =>
            if (result.get? symbol).isSome then
              .error ("exchangeInfo contains duplicate symbol: " ++ symbol)
            else .ok (result.set symbol value)
        | _ => .error "exchangeInfo contains an invalid symbol row")
        Dict.empty
  | _ => .error "exchangeInfo must contain a symbols array"

/-- `_eligibility_reason`: why a symbol is not eligible. -/
def eligibilityReason (raw : Json) (symbol : String) : Option String :=
  if ¬ Json.isText "TRADING" (raw.get? "status") then some "not_trading"
  else if ¬ Json.isText "PERPETUAL" (raw.get? "contractType") then
    some "not_perpetual"
  else if ¬ Json.isText "USDT" (raw.get? "quoteAsset") ∨
      ¬ Json.isText "USDT" (raw.get? "marginAsset") then
    some "not_usdt"
  else if ¬ SymbolPattern symbol then some "invalid_symbol"
  else none

/-- A symbol which passes in both `exchangeInfo` documents. -/
def eligibleRow (confirmedInfo : Dict String Json) (row : String × Json) :
    Option (String × Json) :=
  match confirmedInfo.get? row.1 with
  | none => none
  | some confirmation =>
      if eligibilityReason row.2 row.1 = none ∧
          eligibilityReason confirmation row.1 = none then
        some (row.1, confirmation)
      else none

/-- The eligible symbols, with their confirmed rows. -/
def eligibleRows (firstInfo confirmedInfo : Dict String Json) :
    List (String × Json) :=
  firstInfo.entries.filterMap (eligibleRow confirmedInfo)

/-! ## Numerals -/

section Numerals

variable {δ : Type} [DecimalArithmetic δ]

open DecimalArithmetic

/-- A natural number as a decimal. -/
def ofInteger (value : Int) : δ := ofScaled value 0

/-- `_positive_int`. -/
def positiveInt (δ : Type) [DecimalArithmetic δ] (value : Option Json)
    (label : String) (allowZero : Bool) : Except String Int :=
  match (value.bind Json.numeral?).bind (readInteger δ) with
  | none => .error (label ++ " must be an integer")
  | some parsed =>
      if parsed < 0 ∨ (parsed = 0 ∧ ¬ allowZero) then
        .error (label ++
          if allowZero then " must be non-negative" else " must be positive")
      else .ok parsed

/-- `_decimal`. -/
def decimal (value : Option Json) (label : String) (allowZero : Bool) :
    Except String δ :=
  match (value.bind Json.numeral?).bind readDecimal with
  | none => .error (label ++ " must be a decimal")
  | some parsed =>
      if ¬ isFinite parsed ∨ parsed < ofInteger 0 ∨
          (parsed = ofInteger 0 ∧ ¬ allowZero) then
        .error (label ++
          if allowZero then " must be non-negative" else " must be positive")
      else .ok parsed

/-- `sum(values, Decimal())`. -/
def decimalSum (values : List δ) : δ := values.foldl add (ofInteger 0)

/-- `sorted(values)`. -/
def sortDecimals (values : List δ) : List δ :=
  values.insertionSort (· ≤ ·)

/-- `_median`. -/
def median (values : List δ) : δ :=
  let ordered := sortDecimals values
  let midpoint := ordered.length / 2
  if ordered.length % 2 ≠ 0 then ordered.getD midpoint (ofInteger 0)
  else
    div (add (ordered.getD (midpoint - 1) (ofInteger 0))
      (ordered.getD midpoint (ofInteger 0))) (ofInteger 2)

/-- `_percentile`, interpolated between two neighbours. -/
def percentile (values : List δ) (numerator denominator : Nat) : δ :=
  let ordered := sortDecimals values
  let positionNumerator := (ordered.length - 1) * numerator
  let lower := positionNumerator / denominator
  let remainder := positionNumerator % denominator
  if remainder = 0 then ordered.getD lower (ofInteger 0)
  else
    div (add
      (mul (ordered.getD lower (ofInteger 0))
        (ofInteger (denominator - remainder)))
      (mul (ordered.getD (lower + 1) (ofInteger 0)) (ofInteger remainder)))
      (ofInteger denominator)

/-- `_coefficient_of_variation`. -/
def coefficientOfVariation (values : List δ) : δ :=
  let mean := div (decimalSum values) (ofInteger values.length)
  if mean = ofInteger 0 then infinity
  else
    let variance :=
      div (decimalSum (values.map fun value => pow (sub value mean) 2))
        (ofInteger values.length)
    div (sqrt variance) mean

/-- `min(first, *rest)`. -/
def minimumOf {α : Type} [LinearOrder α] (first : α) (rest : List α) : α :=
  rest.foldl min first

theorem minimumOf_of_le
    {α : Type} [LinearOrder α] {first : α} {rest : List α}
    (least : ∀ other ∈ rest, first ≤ other) :
    minimumOf first rest = first := by
  induction rest with
  | nil => rfl
  | cons head tail induction =>
      rw [List.forall_mem_cons] at least
      rw [minimumOf, List.foldl_cons, min_eq_left least.1]
      exact induction least.2

/-- `max(first, *rest)`. -/
def maximumOf {α : Type} [LinearOrder α] (first : α) (rest : List α) : α :=
  rest.foldl max first

end Numerals

/-! ## Histories -/

section Histories

variable {δ : Type} [DecimalArithmetic δ]

open DecimalArithmetic

/-- What the selector knows of a symbol's days. -/
structure HistoricalRow (δ : Type) where
  symbol : String
  onboardTimeMs : Int
  ageDays : Int
  volumes : List δ
  trades : List Int
  expectedProbeDays : Nat
  observedProbeDays : Nat
  medianQuoteVolume : δ
  q25QuoteVolume : δ
  minimumQuoteVolume : δ
  quoteVolumeCv : δ
  medianTrades : δ
  q25Trades : δ
  minimumTrades : Int

/-- `range(start, stop, DAY_MS)`. -/
def dayRange (start stop : Int) : List Int :=
  (List.range ((stop - start + dayMs - 1) / dayMs).toNat).map
    fun (index : Nat) => start + index * dayMs

theorem mem_dayRange {start stop openMs : Int} :
    openMs ∈ dayRange start stop ↔
      start ≤ openMs ∧ openMs < stop ∧ (openMs - start) % dayMs = 0 := by
  simp only [dayRange, List.mem_map, List.mem_range, dayMs]
  constructor
  · rintro ⟨index, inRange, rfl⟩
    omega
  · rintro ⟨started, before, aligned⟩
    exact ⟨((openMs - start) / 86400000).toNat, by omega, by omega⟩

theorem dayRange_ascending (start stop : Int) :
    (dayRange start stop).Pairwise (· < ·) := by
  rw [dayRange, List.pairwise_map]
  refine List.pairwise_lt_range.imp ?_
  intro earlier later before
  simp only [dayMs]
  omega

/-- `_daily_klines`: the klines by symbol and the end of their window. -/
def dailyKlines (δ : Type) [DecimalArithmetic δ] (raw : Json) :
    Except String (Dict String (List Json) × Int) :=
  match raw.get? "symbols" with
  | some (.object symbols) => do
      let cutoffMs ← positiveInt δ (raw.get? "window_end_exclusive_ms")
        "dailyKlines.windowEndExclusive" false
      if cutoffMs % dayMs ≠ 0 then
        .error "daily kline evidence cutoff must be 00:00 UTC"
      else
        let result ← symbols.foldlM (fun result entry =>
          match entry.2.get? "payload" with
          | some (.array bars) => .ok (result.set entry.1 bars)
          | _ => .error "invalid daily kline evidence") Dict.empty
        .ok (result, cutoffMs)
  | _ => .error "daily kline evidence must contain a symbols object"

/-- The bars of a symbol which lie in the window, by opening time. -/
def windowBars (δ : Type) [DecimalArithmetic δ] (symbol : String)
    (expected : List Int) (cutoffMs : Int) (klines : List Json) :
    Except String (Dict Int (List Json)) :=
  klines.foldlM (fun bars value =>
    match value with
    | .array fields =>
        if fields.length < 9 then
          .error ("invalid daily kline for " ++ symbol)
        else do
          let openMs ← positiveInt δ fields[0]? (symbol ++ ".openTime") true
          let closeMs ← positiveInt δ fields[6]? (symbol ++ ".closeTime") true
          if openMs ∈ expected ∧ closeMs < cutoffMs then
            .ok (bars.set openMs fields)
          else .ok bars
    | _ => .error ("invalid daily kline for " ++ symbol)) Dict.empty

/-- One column of the bars, in the order of the days. -/
def barColumn {α : Type} (bars : Dict Int (List Json)) (column : Nat)
    (read : Option Json → Except String α) : Except String (List α) :=
  ((bars.entries.map Prod.fst).insertionSort (· ≤ ·)).mapM fun openMs =>
    read (((bars.get? openMs).getD [])[column]?)

/--
The row of one eligible symbol, one pass of the loop in `_historical_rows`.
A symbol without bars has no row.
-/
def historicalRow (klines : Dict String (List Json)) (cutoffMs : Int)
    (windowDays : Nat) (symbol : String) (raw : Json) :
    Except String (Option (HistoricalRow δ)) := do
  let windowStartMs := cutoffMs - windowDays * dayMs
  let onboardMs ← positiveInt δ (raw.get? "onboardDate")
    (symbol ++ ".onboardDate") false
  let bars ← windowBars δ symbol (dayRange windowStartMs cutoffMs) cutoffMs
    ((klines.get? symbol).getD [])
  let volumes ← barColumn bars 7 fun value =>
    decimal (δ := δ) value (symbol ++ ".quoteVolume") false
  let trades ← barColumn bars 8 fun value =>
    positiveInt δ value (symbol ++ ".trades") true
  let firstFullDay := (onboardMs + dayMs - 1) / dayMs * dayMs
  let firstProbeDay := max firstFullDay windowStartMs
  let expectedProbe :=
    if firstProbeDay < cutoffMs then dayRange firstProbeDay cutoffMs else []
  match volumes, trades with
  | firstVolume :: otherVolumes, firstTrades :: otherTrades =>
      .ok (some {
        symbol
        onboardTimeMs := onboardMs
        ageDays := max 0 ((cutoffMs - onboardMs) / dayMs)
        volumes
        trades
        expectedProbeDays := expectedProbe.length
        observedProbeDays :=
          expectedProbe.countP fun openMs => (bars.get? openMs).isSome
        medianQuoteVolume := median volumes
        q25QuoteVolume := percentile volumes 1 4
        minimumQuoteVolume := minimumOf firstVolume otherVolumes
        quoteVolumeCv := coefficientOfVariation volumes
        medianTrades := median (trades.map ofInteger)
        q25Trades := percentile (trades.map ofInteger) 1 4
        minimumTrades := minimumOf firstTrades otherTrades })
  | _, _ => .ok none

/-- `_historical_rows`. -/
def historicalRows (eligible : List (String × Json))
    (klines : Dict String (List Json)) (cutoffMs : Int) (windowDays : Nat) :
    Except String (List (HistoricalRow δ)) := do
  let rows ← eligible.mapM fun entry =>
    historicalRow klines cutoffMs windowDays entry.1 entry.2
  .ok (rows.filterMap id)

end Histories

/-! ## Depth -/

section Depth

variable {δ : Type} [DecimalArithmetic δ]

open DecimalArithmetic

/-- What the depth evidence says of one symbol. -/
structure DepthMetrics (δ : Type) where
  depthSampleCount : Nat
  maximumSpreadBps : δ
  minimumThinDepth10bps : δ
  minimumThinDepth50bps : δ
  bookTickerSampleCount : Nat
  bookTickerMaximumSpreadBps : δ

/-- The metrics of a symbol without depth samples. -/
def DepthMetrics.absent : DepthMetrics δ where
  depthSampleCount := 0
  maximumSpreadBps := infinity
  minimumThinDepth10bps := ofInteger 0
  minimumThinDepth50bps := ofInteger 0
  bookTickerSampleCount := 0
  bookTickerMaximumSpreadBps := infinity

/-- The spread between two prices over their midpoint, in basis points. -/
def spreadBps (bid ask : δ) : δ :=
  mul (div (sub ask bid) (div (add bid ask) (ofInteger 2))) (ofInteger 10000)

/-- Append to the list bound to a key. -/
def appendTo {α : Type} (lists : Dict String (List α)) (key : String)
    (value : α) : Dict String (List α) :=
  lists.set key ((lists.get? key).getD [] ++ [value])

/-- The book ticker spreads of every symbol. -/
def bookSpreads (samples : List Json) :
    Except String (Dict String (List δ)) :=
  samples.foldlM (fun spreads sample =>
    match sample.get? "payload" with
    | some (.array tickers) =>
        tickers.foldlM (fun spreads ticker =>
          match ticker.get? "symbol" with
          | some (.text symbol) => do
              let bid ← decimal (ticker.get? "bidPrice")
                "bookTicker.bidPrice" false
              let ask ← decimal (ticker.get? "askPrice")
                "bookTicker.askPrice" false
              .ok (appendTo spreads symbol (spreadBps bid ask))
          | _ => .error "invalid book ticker row") spreads
    | _ => .error "invalid book ticker evidence") Dict.empty

/-- `_book_levels`: the price and quantity of every level, at least one. -/
def bookLevels (payload : Json) (key symbol : String) :
    Except String ((δ × δ) × List (δ × δ)) := do
  let readLevel := fun (value : Json) =>
    match value with
    | .array fields =>
        if fields.length < 2 then
          Except.error ("invalid " ++ key ++ " level for " ++ symbol)
        else do
          let price ← decimal (δ := δ) fields[0]?
            (symbol ++ "." ++ key ++ ".price") false
          let quantity ← decimal (δ := δ) fields[1]?
            (symbol ++ "." ++ key ++ ".quantity") true
          .ok (price, quantity)
    | _ => .error ("invalid " ++ key ++ " level for " ++ symbol)
  match payload.get? key with
  | some (.array (first :: rest)) =>
      let best ← readLevel first
      let others ← rest.mapM readLevel
      .ok (best, others)
  | _ => .error ("depth sample has no " ++ key ++ " for " ++ symbol)

/-- The value of the levels which pass a test on their price. -/
def depthWithin (within : δ → Bool) (levels : List (δ × δ)) : δ :=
  decimalSum ((levels.filter fun level => within level.1).map
    fun level => mul level.1 level.2)

/-- The smaller of the two sides' depths around the midpoint. -/
def thinDepth (midpoint distance : δ) (bids asks : List (δ × δ)) : δ :=
  min
    (depthWithin
      (fun price => mul midpoint (sub (ofInteger 1) distance) ≤ price) bids)
    (depthWithin
      (fun price => price ≤ mul midpoint (add (ofInteger 1) distance)) asks)

/-- The spread and the two thin depths of one depth sample. -/
def depthSample (symbol : String) (sample : Json) :
    Except String (δ × δ × δ) :=
  match sample.get? "payload" with
  | some (.object members) => do
      let bids ← bookLevels (δ := δ) (.object members) "bids" symbol
      let asks ← bookLevels (δ := δ) (.object members) "asks" symbol
      let midpoint := div (add bids.1.1 asks.1.1) (ofInteger 2)
      .ok (spreadBps bids.1.1 asks.1.1,
        thinDepth midpoint (ofScaled 1 3) (bids.1 :: bids.2)
          (asks.1 :: asks.2),
        thinDepth midpoint (ofScaled 5 3) (bids.1 :: bids.2)
          (asks.1 :: asks.2))
  | _ => .error ("invalid depth sample for " ++ symbol)

/-- The metrics of the samples of one symbol; without samples, none. -/
def symbolDepth (tickerSpreads : List δ) (samples : List (δ × δ × δ)) :
    Option (DepthMetrics δ) :=
  match samples with
  | [] => none
  | first :: rest => some {
      depthSampleCount := samples.length
      maximumSpreadBps := maximumOf first.1 (rest.map fun sample => sample.1)
      minimumThinDepth10bps :=
        minimumOf first.2.1 (rest.map fun sample => sample.2.1)
      minimumThinDepth50bps :=
        minimumOf first.2.2 (rest.map fun sample => sample.2.2)
      bookTickerSampleCount := tickerSpreads.length
      bookTickerMaximumSpreadBps :=
        match tickerSpreads with
        | [] => infinity
        | head :: tail => maximumOf head tail }

/-- `_depth_metrics`. -/
def depthMetrics (raw : Json) : Except String (Dict String (DepthMetrics δ)) :=
  match raw.get? "symbols", raw.get? "book_tickers" with
  | some (.object symbols), some (.array bookSamples) => do
      let spreads ← bookSpreads bookSamples
      symbols.foldlM (fun result entry =>
        match entry.2 with
        | .array samples => do
            let measured ← samples.mapM (depthSample entry.1)
            match symbolDepth ((spreads.get? entry.1).getD []) measured with
            | none => .ok result
            | some metrics => .ok (result.set entry.1 metrics)
        | _ => .error "invalid liquidity depth evidence") Dict.empty
  | some (.object _), _ =>
      .error "liquidity depth evidence must contain book_tickers"
  | _, _ => .error "liquidity depth evidence must contain a symbols object"

end Depth

/-! ## Market rows -/

/-- A history with the depth metrics of its symbol. -/
structure MarketRow (δ : Type) extends DepthMetrics δ where
  history : HistoricalRow δ

namespace MarketRow

variable {δ : Type}

def symbol (row : MarketRow δ) : String := row.history.symbol

def onboardTimeMs (row : MarketRow δ) : Int := row.history.onboardTimeMs

def ageDays (row : MarketRow δ) : Int := row.history.ageDays

end MarketRow

/--
`_market_rows`: the rows of the eligible symbols, and the tracked symbols
which are not eligible.
-/
def marketRows {δ : Type} [DecimalArithmetic δ]
    (snapshot : DiscoverySnapshot) (tracked : List String)
    (windowDays : Nat) :
    Except String (List (MarketRow δ) × List String) := do
  let firstInfo ← symbolInfo snapshot.exchangeInfo.payload
  let confirmedInfo ← symbolInfo snapshot.exchangeInfoConfirmation.payload
  let eligible := eligibleRows firstInfo confirmedInfo
  let inactive := sortSymbols
    (tracked.filter fun symbol => symbol ∉ eligible.map Prod.fst)
  let (klines, cutoffMs) ← dailyKlines δ snapshot.dailyKlines.payload
  let histories ← historicalRows (δ := δ) eligible klines cutoffMs windowDays
  let depth ← depthMetrics (δ := δ) snapshot.liquidityDepth.payload
  .ok (histories.map fun history =>
      { (depth.get? history.symbol).getD DepthMetrics.absent with history },
    inactive)

/-! ## What the rows show -/

/-- Both `exchangeInfo` documents show the symbol as tradable. -/
def DoublyEligible (snapshot : DiscoverySnapshot) (symbol : String) : Prop :=
  ∃ firstInfo confirmedInfo raw confirmation,
    symbolInfo snapshot.exchangeInfo.payload = .ok firstInfo ∧
    symbolInfo snapshot.exchangeInfoConfirmation.payload =
      .ok confirmedInfo ∧
    firstInfo.get? symbol = some raw ∧
    confirmedInfo.get? symbol = some confirmation ∧
    eligibilityReason raw symbol = none ∧
    eligibilityReason confirmation symbol = none

theorem eligibleRow_eq_some
    {confirmedInfo : Dict String Json} {row : String × Json}
    {symbol : String} {confirmation : Json}
    (eligible : eligibleRow confirmedInfo row = some (symbol, confirmation)) :
    symbol = row.1 ∧ confirmedInfo.get? symbol = some confirmation ∧
      eligibilityReason row.2 symbol = none ∧
      eligibilityReason confirmation symbol = none := by
  unfold eligibleRow at eligible
  split at eligible
  next => cases eligible
  next confirmed found =>
    split at eligible
    next passes =>
      cases eligible
      exact ⟨rfl, found, passes⟩
    next => cases eligible

/-- Each symbol is eligible once. -/
theorem eligibleRows_distinct (firstInfo confirmedInfo : Dict String Json) :
    ((eligibleRows firstInfo confirmedInfo).map Prod.fst).Nodup := by
  apply List.Nodup.sublist _ firstInfo.distinct
  unfold eligibleRows
  induction firstInfo.entries with
  | nil => exact List.Sublist.refl _
  | cons row rest induction =>
      cases eligible : eligibleRow confirmedInfo row with
      | none =>
          rw [List.filterMap_cons_none eligible]
          exact induction.cons _
      | some found =>
          rw [List.filterMap_cons_some eligible, List.map_cons, List.map_cons,
            (eligibleRow_eq_some eligible).1]
          exact induction.cons_cons _

theorem mem_eligibleRows_iff
    {snapshot : DiscoverySnapshot} {firstInfo confirmedInfo : Dict String Json}
    (first : symbolInfo snapshot.exchangeInfo.payload = .ok firstInfo)
    (confirmed : symbolInfo snapshot.exchangeInfoConfirmation.payload =
      .ok confirmedInfo)
    {symbol : String} :
    symbol ∈ (eligibleRows firstInfo confirmedInfo).map Prod.fst ↔
      DoublyEligible snapshot symbol := by
  rw [List.mem_map]
  constructor
  · rintro ⟨⟨found, confirmation⟩, member, rfl⟩
    rcases List.mem_filterMap.mp member with ⟨⟨named, raw⟩, inFirst, eligible⟩
    rcases eligibleRow_eq_some eligible with ⟨rfl, isConfirmed, passes⟩
    exact ⟨firstInfo, confirmedInfo, raw, confirmation, first, confirmed,
      firstInfo.mem_entries_iff.mp inFirst, isConfirmed, passes⟩
  · rintro ⟨otherFirst, otherConfirmed, raw, confirmation, readFirst,
      readConfirmed, inFirst, inConfirmed, passes⟩
    cases first.symm.trans readFirst
    cases confirmed.symm.trans readConfirmed
    refine ⟨(symbol, confirmation), List.mem_filterMap.mpr ?_, rfl⟩
    refine ⟨(symbol, raw), firstInfo.mem_entries_iff.mpr inFirst, ?_⟩
    simp only [eligibleRow, inConfirmed, passes, and_self, if_true]

section Rows

variable {δ : Type} [DecimalArithmetic δ]

theorem historicalRow_symbol
    {klines : Dict String (List Json)} {cutoffMs : Int} {windowDays : Nat}
    {symbol : String} {raw : Json} {row : HistoricalRow δ}
    (read : historicalRow klines cutoffMs windowDays symbol raw =
      .ok (some row)) :
    row.symbol = symbol := by
  simp only [historicalRow, bind_eq_ok_iff] at read
  rcases read with ⟨_, _, _, _, _, _, _, _, built⟩
  split at built
  · rw [← Option.some.inj (Except.ok.inj built)]
  · cases built

/-- The rows come from the eligible symbols, in their order. -/
theorem historicalRows_sublist
    {eligible : List (String × Json)} {klines : Dict String (List Json)}
    {cutoffMs : Int} {windowDays : Nat} {rows : List (HistoricalRow δ)}
    (read : historicalRows eligible klines cutoffMs windowDays = .ok rows) :
    (rows.map HistoricalRow.symbol).Sublist (eligible.map Prod.fst) := by
  rw [historicalRows, bind_eq_ok_iff] at read
  rcases read with ⟨found, mapped, kept⟩
  rw [← Except.ok.inj kept]
  have related := mapM_forall₂ mapped
  clear kept mapped
  induction related with
  | nil => exact List.Sublist.refl _
  | @cons entry row? _ _ converted _ induction =>
      cases row? with
      | none => exact induction.cons _
      | some row =>
          rw [List.filterMap_cons_some (f := id) rfl, List.map_cons, List.map_cons,
            historicalRow_symbol converted]
          exact induction.cons_cons _

/-- What the market rows of a snapshot say about its symbols. -/
structure MarketShown (snapshot : DiscoverySnapshot) (tracked : List String)
    (rows : List (MarketRow δ)) (inactive : List String) : Prop where
  distinct : (rows.map MarketRow.symbol).Nodup
  eligible : ∀ row ∈ rows, DoublyEligible snapshot row.symbol
  inactive_iff : ∀ symbol,
    symbol ∈ inactive ↔ symbol ∈ tracked ∧ ¬ DoublyEligible snapshot symbol

theorem marketRows_shown
    {snapshot : DiscoverySnapshot} {tracked : List String} {windowDays : Nat}
    {rows : List (MarketRow δ)} {inactive : List String}
    (read : marketRows snapshot tracked windowDays = .ok (rows, inactive)) :
    MarketShown snapshot tracked rows inactive := by
  simp only [marketRows, bind_eq_ok_iff] at read
  rcases read with ⟨firstInfo, first, confirmedInfo, confirmed, klines, _,
    histories, historiesRead, depth, _, built⟩
  cases built
  have symbols :
      (histories.map fun history =>
        ({ (depth.get? history.symbol).getD DepthMetrics.absent with
            history } : MarketRow δ)).map MarketRow.symbol =
        histories.map HistoricalRow.symbol := by
    rw [List.map_map]
    rfl
  have fromEligible := historicalRows_sublist historiesRead
  constructor
  · rw [symbols]
    exact (eligibleRows_distinct firstInfo confirmedInfo).sublist fromEligible
  · intro row member
    have named : row.symbol ∈ histories.map HistoricalRow.symbol := by
      rw [← symbols]
      exact List.mem_map_of_mem member
    exact (mem_eligibleRows_iff first confirmed).mp (fromEligible.subset named)
  · intro symbol
    rw [mem_sortSymbols, List.mem_filter, decide_eq_true_eq,
      mem_eligibleRows_iff first confirmed]

end Rows

end ShadowDataPlane.Central
