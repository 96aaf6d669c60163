import ShadowDataPlane.Contracts.Universe
import ShadowDataPlane.Edge.RouteUpdates
import ShadowDataPlane.Foundation.Buckets

/-!
# The source group

`SourceManager` splits the instruments over public connections by a hash of
the symbol, and serves all of them on one market connection.  Its
`update_instruments` computes the shards of the next universe and has every
route update itself; the routes then take their steps in any order.

`digest` is the number in the first eight bytes of a symbol's SHA-256.  All that
matters of it here is that it is a function of the symbol.  The pollers, which
subscribe nothing, are left out.
-/

namespace ShadowDataPlane.Edge

open ShadowDataPlane.Contracts
open ShadowDataPlane.Foundation

/-- What `EdgeConfig` says about the source group. -/
structure SourceConfig where
  publicConnectionShards : Nat
  d0Enabled : Bool
  publicStreamLiveness : Nat
  markPriceLiveness : Nat
  atLeastOne : 1 ≤ publicConnectionShards
  atMostFour : publicConnectionShards ≤ 4

/-- `shard_instruments`. -/
def shardInstruments (digest : String → Nat) (instruments : List String)
    (count : Nat) : List (List String) :=
  let shardCount := min count instruments.length
  distribute (fun symbol => digest symbol % shardCount)
    (List.replicate shardCount []) (sortSymbols instruments)

/-- The names of the routes: `public-{index}` and `market-0`. -/
inductive RouteName where
  | publicShard (index : Nat)
  | market
deriving DecidableEq

/-- The kind of the route which `_run` builds under a name. -/
def SourceConfig.kindOf (config : SourceConfig) : RouteName → RouteKind
  | .publicShard _ => .publicRoute config.d0Enabled
  | .market => .marketRoute

/-- `_routes`. -/
structure Sources where
  publicRoutes : List RouteState
  marketRoute : RouteState
deriving DecidableEq

namespace Sources

def route? (sources : Sources) : RouteName → Option RouteState
  | .publicShard index => sources.publicRoutes[index]?
  | .market => some sources.marketRoute

def setRoute (sources : Sources) (name : RouteName) (route : RouteState) :
    Sources :=
  match name with
  | .publicShard index =>
      { sources with publicRoutes := sources.publicRoutes.set index route }
  | .market => { sources with marketRoute := route }

end Sources

/-- The routes which `_run` builds. -/
def startSources (digest : String → Nat) (config : SourceConfig)
    (instruments : List String) (now : Seen) : Sources where
  publicRoutes :=
    (shardInstruments digest instruments
      config.publicConnectionShards).map fun shard =>
        startRoute (.publicRoute config.d0Enabled)
          config.publicStreamLiveness shard now
  marketRoute :=
    startRoute .marketRoute config.markPriceLiveness instruments now

/-- Call `update_instruments` of a public route for every shard. -/
def requestUpdates : List RouteState → List (List String) →
    Option (List RouteState)
  | routes, [] => some routes
  -- `self._routes[f"public-{index}"]` raises `KeyError`.
  | [], _ :: _ => none
  | route :: routes, shard :: shards =>
      match routeStep route (.requestUpdate shard),
          requestUpdates routes shards with
      | some requested, some others => some (requested :: others)
      | _, _ => none

/-- `SourceManager.update_instruments`, up to where it gathers the updates. -/
def Sources.updateInstruments (digest : String → Nat) (config : SourceConfig)
    (sources : Sources) (instruments : List String) : Option Sources :=
  match requestUpdates sources.publicRoutes
      (shardInstruments digest instruments config.publicConnectionShards),
      routeStep sources.marketRoute (.requestUpdate instruments) with
  | some publicRoutes, some marketRoute => some { publicRoutes, marketRoute }
  | _, _ => none

/-- One step of one route. -/
def sourcesStep (sources : Sources) (label : RouteName × RouteLabel) :
    Option Sources :=
  match sources.route? label.1 with
  | none => none
  | some route => (routeStep route label.2).map (sources.setRoute label.1)

/-! ## Shards -/

section shards

variable (digest : String → Nat) (config : SourceConfig)
variable (instruments : List String)

/-- The instruments which the route of a name is given. -/
def assigned : RouteName → List String
  | .publicShard index =>
      ((shardInstruments digest instruments
        config.publicConnectionShards)[index]?).getD []
  | .market => instruments

@[simp]
theorem length_shardInstruments (count : Nat) :
    (shardInstruments digest instruments count).length =
      min count instruments.length := by
  rw [shardInstruments, length_distribute, List.length_replicate]

variable {digest config instruments}

/-- A shard holds the symbols whose hash names it. -/
theorem mem_shard_iff {index : Nat} {symbol : String} :
    symbol ∈ assigned digest config instruments (.publicShard index) ↔
      symbol ∈ instruments ∧
        digest symbol %
          min config.publicConnectionShards instruments.length = index := by
  by_cases inRange :
      index < min config.publicConnectionShards instruments.length
  · simp only [assigned, shardInstruments]
    rw [getElem?_distribute_replicate _ _ _ inRange, Option.getD_some,
      List.mem_filter, mem_sortSymbols, decide_eq_true_eq]
  · have missing : (shardInstruments digest instruments
        config.publicConnectionShards)[index]? = none := by
      rw [List.getElem?_eq_none_iff, length_shardInstruments]
      exact Nat.not_lt.mp inRange
    rw [assigned, missing]
    constructor
    · exact fun member => absurd member List.not_mem_nil
    · rintro ⟨member, rfl⟩
      refine absurd (Nat.mod_lt _ ?_) inRange
      exact Nat.lt_min.mpr
        ⟨config.atLeastOne, List.length_pos_of_mem member⟩

/-- Every symbol is on exactly one shard. -/
theorem existsUnique_shard {symbol : String} (member : symbol ∈ instruments) :
    ∃! index, symbol ∈ assigned digest config instruments (.publicShard index) :=
  ⟨_, mem_shard_iff.mpr ⟨member, rfl⟩,
    fun _ onShard => (mem_shard_iff.mp onShard).2.symm⟩

theorem mem_of_mem_assigned {name : RouteName} {symbol : String}
    (member : symbol ∈ assigned digest config instruments name) :
    symbol ∈ instruments := by
  cases name with
  | publicShard index => exact (mem_shard_iff.mp member).1
  | market => exact member

/-- As many instruments are split alike: a common symbol keeps its route. -/
theorem mem_assigned_of_common
    {before after : List String} (sameLength : before.length = after.length)
    {name : RouteName} {symbol : String}
    (served : symbol ∈ assigned digest config before name)
    (member : symbol ∈ after) :
    symbol ∈ assigned digest config after name := by
  cases name with
  | publicShard index =>
      apply mem_shard_iff.mpr
      rw [← sameLength]
      exact ⟨member, (mem_shard_iff.mp served).2⟩
  | market => exact member

end shards

/-! ## Routes by name -/

namespace Sources

variable {sources : Sources} {name : RouteName} {route : RouteState}

theorem route?_setRoute
    (present : (sources.route? name).isSome) (other : RouteName) :
    (sources.setRoute name route).route? other =
      if name = other then some route else sources.route? other := by
  cases name with
  | publicShard index =>
      cases other with
      | publicShard otherIndex =>
          simp only [route?, setRoute, List.getElem?_set,
            RouteName.publicShard.injEq]
          by_cases same : index = otherIndex
          · subst same
            have inRange : index < sources.publicRoutes.length := by
              simpa [route?] using present
            simp [inRange]
          · simp [same]
      | market => simp [route?, setRoute]
  | market =>
      cases other with
      | publicShard index => simp [route?, setRoute]
      | market => simp [route?, setRoute]

@[simp]
theorem length_publicRoutes_setRoute :
    (sources.setRoute name route).publicRoutes.length =
      sources.publicRoutes.length := by
  cases name with
  | publicShard index => exact List.length_set
  | market => rfl

end Sources

/-- A step of the group is a step of the route it names. -/
theorem sourcesStep_eq_some
    {sources next : Sources} {name : RouteName} {label : RouteLabel}
    (stepped : sourcesStep sources (name, label) = some next) :
    ∃ route after, sources.route? name = some route ∧
      routeStep route label = some after ∧
      next = sources.setRoute name after := by
  simp only [sourcesStep] at stepped
  split at stepped
  next => cases stepped
  next route found =>
    rcases Option.map_eq_some_iff.mp stepped with ⟨after, isStep, rfl⟩
    exact ⟨route, after, found, isStep, rfl⟩

end ShadowDataPlane.Edge
