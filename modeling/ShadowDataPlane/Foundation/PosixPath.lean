import Mathlib.Data.List.Basic

/-!
# POSIX paths

A path is a text; its components stand between slashes.  `normpath` is
`posixpath.normpath`, which takes `.` away and lets `..` take the component in
front of it away.

Where a relative path leads is `walk`: the names below a root, unless the path
climbs above the root on its way.  A normalised relative path tells this by its
first component (`Resolved`): either it holds the names of the place and no
`..`, or it begins with `..` and the path leads out.
-/

namespace ShadowDataPlane.Foundation

/-- A path in characters. -/
abbrev PathText := List Char

/-- What stands between slashes. -/
def pathComponents (path : PathText) : List PathText := path.splitOn '/'

/-- Components with slashes between them. -/
def joinPath (components : List PathText) : PathText :=
  ['/'].intercalate components

/-- The component of the directory itself. -/
def hereComponent : PathText := ['.']

/-- The component of the directory above. -/
def parentComponent : PathText := ['.', '.']

/-! ## Normalised paths -/

/-- `normpath` takes one component. -/
def normStep (absolute : Bool) (kept : List PathText) (component : PathText) :
    List PathText :=
  if component = [] ∨ component = hereComponent then kept
  else if component ≠ parentComponent ∨ (absolute = false ∧ kept = []) ∨
      kept.getLast? = some parentComponent then
    kept ++ [component]
  else kept.dropLast

/-- The slashes which a path begins with: exactly two are kept. -/
def initialSlashes : PathText → Nat
  | '/' :: '/' :: '/' :: _ => 1
  | '/' :: '/' :: _ => 2
  | '/' :: _ => 1
  | _ => 0

/-- The components which `normpath` keeps. -/
def normComponents (path : PathText) : List PathText :=
  (pathComponents path).foldl (normStep (initialSlashes path != 0)) []

/-- `posixpath.normpath`. -/
def normpath (path : PathText) : PathText :=
  if path = [] then hereComponent
  else
    let normalised := List.replicate (initialSlashes path) '/' ++
      joinPath (normComponents path)
    if normalised = [] then hereComponent else normalised

/-! ## Where a path leads -/

/-- One component from a place below the root; `none` is outside. -/
def walkStep (place : Option (List PathText)) (component : PathText) :
    Option (List PathText) :=
  match place with
  | none => none
  | some names =>
      if component = [] ∨ component = hereComponent then some names
      else if component = parentComponent then
        if names = [] then none else some names.dropLast
      else some (names ++ [component])

/-- The place a relative path leads to without ever leaving the root. -/
def walk (path : PathText) : Option (List PathText) :=
  (pathComponents path).foldl walkStep (some [])

/-- What the components of `normpath` tell of the place. -/
inductive Resolved : List PathText → Option (List PathText) → Prop where
  | inside {names : List PathText} (noParent : parentComponent ∉ names) :
      Resolved names (some names)
  | outside {components : List PathText}
      (above : components.head? = some parentComponent) :
      Resolved components none

namespace Resolved

theorem step
    {components : List PathText} {place : Option (List PathText)}
    (resolved : Resolved components place) (component : PathText) :
    Resolved (normStep false components component)
      (walkStep place component) := by
  unfold normStep
  by_cases here : component = [] ∨ component = hereComponent
  · rw [if_pos here]
    cases resolved with
    | inside noParent =>
        simp only [walkStep, if_pos here]
        exact inside noParent
    | outside above => exact outside above
  rw [if_neg here]
  cases resolved with
  | inside noParent =>
      simp only [walkStep, if_neg here]
      by_cases parent : component = parentComponent
      · by_cases isRoot : components = []
        · subst isRoot parent
          exact outside rfl
        · have lastName : components.getLast? ≠ some parentComponent :=
            fun isParent => noParent (List.mem_of_getLast? isParent)
          rw [if_neg (by simp [parent, isRoot, lastName]), if_pos parent,
            if_neg isRoot]
          exact inside fun isMember =>
            noParent ((List.dropLast_sublist _).subset isMember)
      · rw [if_pos (Or.inl parent), if_neg parent]
        refine inside fun isMember => ?_
        rcases List.mem_append.mp isMember with earlier | new
        · exact noParent earlier
        · exact parent (List.mem_singleton.mp new).symm
  | outside above =>
      simp only [walkStep]
      cases components with
      | nil => cases above
      | cons first rest =>
          rw [List.head?_cons, Option.some.injEq] at above
          subst above
          split
          next => exact outside rfl
          next kept =>
            -- The first component is not the last one here.
            cases rest with
            | nil => exact absurd (Or.inr (Or.inr rfl)) kept
            | cons second rest => exact outside rfl

theorem foldl
    {components : List PathText} {place : Option (List PathText)}
    (resolved : Resolved components place) (more : List PathText) :
    Resolved (more.foldl (normStep false) components)
      (more.foldl walkStep place) := by
  induction more generalizing components place with
  | nil => exact resolved
  | cons component more induction => exact induction (resolved.step component)

theorem eq_of_some
    {components names : List PathText}
    (resolved : Resolved components (some names)) :
    components = names ∧ parentComponent ∉ components := by
  cases resolved with
  | inside noParent => exact ⟨rfl, noParent⟩

end Resolved

/-- The components of a relative path tell where it leads. -/
theorem resolved_normComponents
    {path : PathText} (relative : initialSlashes path = 0) :
    Resolved (normComponents path) (walk path) := by
  rw [normComponents, relative]
  exact Resolved.foldl (.inside List.not_mem_nil) _

/-! ## Components of a normalised path -/

theorem not_mem_of_mem_splitOn
    {separator : Char} {text component : List Char}
    (isComponent : component ∈ text.splitOn separator) :
    separator ∉ component := by
  induction text generalizing component with
  | nil =>
      rw [List.splitOn_nil, List.mem_singleton] at isComponent
      subst isComponent
      exact List.not_mem_nil
  | cons char text induction =>
      rw [List.splitOn_cons_eq_if_modifyHead] at isComponent
      split at isComponent
      next =>
        rcases List.mem_cons.mp isComponent with rfl | later
        · exact List.not_mem_nil
        · exact induction later
      next other =>
        cases isSplit : text.splitOn separator with
        | nil => exact absurd isSplit (List.splitOn_ne_nil separator text)
        | cons first rest =>
            rw [isSplit] at isComponent induction
            rcases List.mem_cons.mp isComponent with rfl | later
            · refine fun isMember => ?_
              rcases List.mem_cons.mp isMember with isChar | inFirst
              · exact other (beq_iff_eq.mpr isChar.symm)
              · exact induction List.mem_cons_self inFirst
            · exact induction (List.mem_cons_of_mem _ later)

theorem mem_foldl_normStep
    {absolute : Bool} {components kept : List PathText} {component : PathText}
    (isKept : component ∈ components.foldl (normStep absolute) kept) :
    component ∈ kept ∨ component ∈ components := by
  induction components generalizing kept with
  | nil => exact Or.inl isKept
  | cons first components induction =>
      rcases induction isKept with inStep | later
      · unfold normStep at inStep
        split at inStep
        next => exact Or.inl inStep
        next =>
          split at inStep
          next =>
            rcases List.mem_append.mp inStep with earlier | new
            · exact Or.inl earlier
            · exact Or.inr (List.mem_cons.mpr (Or.inl
                (List.mem_singleton.mp new)))
          next => exact Or.inl ((List.dropLast_sublist _).subset inStep)
      · exact Or.inr (List.mem_cons_of_mem _ later)

/-- Components without slashes are read off their path. -/
theorem joinPath_inj
    {components others : List PathText}
    (some : components ≠ []) (otherSome : others ≠ [])
    (noSlash : ∀ component ∈ components, '/' ∉ component)
    (otherNoSlash : ∀ component ∈ others, '/' ∉ component)
    (same : joinPath components = joinPath others) :
    components = others := by
  rw [← List.splitOn_intercalate '/' noSlash some,
    ← List.splitOn_intercalate '/' otherNoSlash otherSome]
  exact congrArg (List.splitOn '/') same

theorem noSlash_normComponents (path : PathText) :
    ∀ component ∈ normComponents path, '/' ∉ component := by
  intro component isKept
  rcases mem_foldl_normStep isKept with earlier | isComponent
  · cases earlier
  · exact not_mem_of_mem_splitOn isComponent

end ShadowDataPlane.Foundation
