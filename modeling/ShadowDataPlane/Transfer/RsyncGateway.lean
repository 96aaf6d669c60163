import Mathlib.Data.List.DropRight
import ShadowDataPlane.Foundation.PosixPath
import ShadowDataPlane.Foundation.ShellWords

/-!
# The rsync gateway

Every SSH command of the central key is replaced by `rsync_gateway.py`.  The
gateway reads the words of the command, admits one path and hands the command
to `rrsync` with that path replaced by `.` and with the directory it may see.

`restrictCommand_ok_iff` says which commands are admitted and what becomes of
them.  `transport_admitted_iff` connects this to the roots that `RsyncTransport`
takes from its configuration.  How rsync writes its command is its own matter;
the words are those of a server with the options of a transfer, a dot and the
path.
-/

namespace ShadowDataPlane.Transfer

open ShadowDataPlane.Foundation

/-! ## The gateway -/

def rsyncWord : List Char := "rsync".toList
def serverWord : List Char := "--server".toList
def senderWord : List Char := "--sender".toList

/-- What the central machine may read. -/
def readyNames : List PathText := ["ready".toList]

/-- What the central machine may write. -/
def acksNames : List PathText := ["control".toList, "acks".toList]

/-- An admitted command and the arguments for rrsync. -/
structure RestrictedCommand where
  originalCommand : List Char
  rrsyncArguments : List (List Char)
deriving DecidableEq

/-- Why a command is refused. -/
inductive GatewayError where
  | invalidQuoting
  | notRsyncServer
  | invalidServerCommand
  | onePathRequired
  | absolutePath
  | pathTraversal
  | pathNotAllowed
deriving DecidableEq, Repr

/-- `rrsync` may read `ready` below `DATA_ROOT`. -/
def readArguments : List (List Char) :=
  ["-ro".toList, "/srv/ft-data-rsync/ready".toList]

/-- `rrsync` may write, but not delete, acknowledgements. -/
def writeArguments : List (List Char) :=
  ["-wo".toList, "-no-del".toList, "/srv/ft-data-rsync/control/acks".toList]

/-- `_normalize_path`. -/
def normalizePath (value : PathText) : Except GatewayError PathText :=
  if value.head? = some '/' then .error .absolutePath
  else if normpath value = parentComponent ∨
      parentComponent ++ ['/'] <+: normpath value then
    .error .pathTraversal
  else .ok (normpath value)

/-- The directory which a transfer with these options may use. -/
def admitPath (options rewritten : List (List Char)) (remotePath : PathText) :
    Except GatewayError RestrictedCommand :=
  let sender := options.take 1 == [senderWord]
  if sender = true ∧ remotePath = joinPath readyNames then
    .ok ⟨shellJoin rewritten, readArguments⟩
  else if sender = false ∧ remotePath = joinPath acksNames then
    .ok ⟨shellJoin rewritten, writeArguments⟩
  else .error .pathNotAllowed

/-- The words behind `rsync --server`. -/
def restrictArguments (arguments : List (List Char)) :
    Except GatewayError RestrictedCommand :=
  match arguments.idxOf? hereComponent with
  | none => .error .invalidServerCommand
  | some separator =>
      match arguments.drop (separator + 1) with
      | [path] => do
          let remotePath ← normalizePath path
          admitPath (arguments.take separator)
            ([rsyncWord, serverWord] ++ arguments.take (separator + 1) ++
              [hereComponent])
            remotePath
      | _ => .error .onePathRequired

/-- The words of a command. -/
def restrictWords (arguments : List (List Char)) :
    Except GatewayError RestrictedCommand :=
  if arguments.take 2 ≠ [rsyncWord, serverWord] then .error .notRsyncServer
  else restrictArguments (arguments.drop 2)

/-- `restrict_command`. -/
def restrictCommand (command : List Char) :
    Except GatewayError RestrictedCommand :=
  match shellSplit command with
  | .error _ => .error .invalidQuoting
  | .ok arguments => restrictWords arguments

/-! ## The path which is admitted -/

/-- Names which normalisation leaves alone. -/
structure PlainNames (names : List PathText) : Prop where
  notNil : names ≠ []
  noSlash : ∀ name ∈ names, '/' ∉ name
  notEmpty : joinPath names ≠ []
  notHere : joinPath names ≠ hereComponent
  noParent : parentComponent ∉ names

theorem plainNames_ready : PlainNames readyNames where
  notNil := by decide
  noSlash := by decide
  notEmpty := by decide
  notHere := by decide
  noParent := by decide

theorem plainNames_acks : PlainNames acksNames where
  notNil := by decide
  noSlash := by decide
  notEmpty := by decide
  notHere := by decide
  noParent := by decide

theorem initialSlashes_eq_zero {path : PathText}
    (relative : path.head? ≠ some '/') : initialSlashes path = 0 := by
  unfold initialSlashes
  split
  next => exact absurd rfl relative
  next => exact absurd rfl relative
  next => exact absurd rfl relative
  next => rfl

theorem normpath_of_relative {path : PathText} (notNil : path ≠ [])
    (relative : path.head? ≠ some '/') :
    normpath path =
      if joinPath (normComponents path) = [] then hereComponent
      else joinPath (normComponents path) := by
  simp only [normpath, if_neg notNil, initialSlashes_eq_zero relative,
    List.replicate_zero, List.nil_append]

/-- Where a relative path leads, and that it is relative. -/
def LeadsBelow (path : PathText) (names : List PathText) : Prop :=
  path.head? ≠ some '/' ∧ walk path = some names

namespace PlainNames

variable {names : List PathText}

/-- A relative path is normalised to plain names if it leads there. -/
theorem normpath_eq_iff (plain : PlainNames names) {path : PathText}
    (relative : path.head? ≠ some '/') :
    normpath path = joinPath names ↔ walk path = some names := by
  have resolved := resolved_normComponents (initialSlashes_eq_zero relative)
  constructor
  · intro normalised
    by_cases isNil : path = []
    · subst isNil
      exact absurd normalised.symm plain.notHere
    rw [normpath_of_relative isNil relative] at normalised
    split at normalised
    next => exact absurd normalised.symm plain.notHere
    next isText =>
      have keptSome : normComponents path ≠ [] := by
        intro isEmpty
        rw [isEmpty] at isText
        exact isText rfl
      have same : normComponents path = names :=
        joinPath_inj keptSome plain.notNil (noSlash_normComponents path)
          plain.noSlash normalised
      rw [same] at resolved
      cases place : walk path with
      | none =>
          rw [place] at resolved
          cases resolved with
          | outside above =>
              exact absurd (List.mem_of_mem_head? above) plain.noParent
      | some others =>
          rw [place] at resolved
          rw [resolved.eq_of_some.1]
  · intro leads
    rw [leads] at resolved
    have notNil : path ≠ [] := by
      rintro rfl
      exact plain.notNil (Option.some.inj leads).symm
    rw [normpath_of_relative notNil relative, resolved.eq_of_some.1,
      if_neg plain.notEmpty]

theorem not_parent (plain : PlainNames names) :
    joinPath names ≠ parentComponent ∧
      ¬parentComponent ++ ['/'] <+: joinPath names := by
  constructor
  · intro isParent
    have same : names = [parentComponent] :=
      joinPath_inj plain.notNil (List.cons_ne_nil _ _) plain.noSlash
        (by decide) isParent
    exact plain.noParent (by simp [same])
  · rintro ⟨rest, begins⟩
    have split : names = parentComponent :: rest.splitOn '/' := by
      rw [← List.splitOn_intercalate '/' plain.noSlash plain.notNil,
        show ['/'].intercalate names = joinPath names from rfl, ← begins,
        List.append_assoc, List.singleton_append,
        List.splitOn_append_cons_self_of_not_mem (by decide)]
    exact plain.noParent (by simp [split])

/-- The gateway normalises a path to plain names if it leads there. -/
theorem normalizePath_eq_iff (plain : PlainNames names) (path : PathText) :
    normalizePath path = .ok (joinPath names) ↔ LeadsBelow path names := by
  unfold normalizePath LeadsBelow
  by_cases relative : path.head? = some '/'
  · simp [relative]
  rw [if_neg relative, and_iff_right relative,
    ← plain.normpath_eq_iff relative]
  constructor
  · intro normalised
    split at normalised
    next => cases normalised
    next => exact Except.ok.inj normalised
  · intro normalised
    rw [if_neg, normalised]
    rw [normalised, not_or]
    exact plain.not_parent

end PlainNames

/-! ## What is admitted -/

/-- A server is started with options, a dot and a path. -/
def serverCommand (options : List (List Char)) (path : PathText) :
    List (List Char) :=
  [rsyncWord, serverWord] ++ options ++ [hereComponent, path]

/-- The gateway admits reading `ready` and writing acknowledgements. -/
inductive Admitted (options : List (List Char)) (path : PathText) :
    List (List Char) → Prop where
  | read (sends : options.head? = some senderWord)
      (leads : LeadsBelow path readyNames) :
      Admitted options path readArguments
  | write (receives : options.head? ≠ some senderWord)
      (leads : LeadsBelow path acksNames) :
      Admitted options path writeArguments

theorem take_one_eq (options : List (List Char)) :
    (options.take 1 == [senderWord]) =
      decide (options.head? = some senderWord) := by
  cases options with
  | nil => decide
  | cons first rest =>
      rw [Bool.eq_iff_iff]
      simp

theorem admitPath_ok_iff
    {options rewritten : List (List Char)} {path : PathText}
    {result : RestrictedCommand} :
    (normalizePath path >>= admitPath options rewritten) = .ok result ↔
      result.originalCommand = shellJoin rewritten ∧
        Admitted options path result.rrsyncArguments := by
  rcases result with ⟨originalCommand, rrsyncArguments⟩
  have ready := plainNames_ready.normalizePath_eq_iff path
  have acks := plainNames_acks.normalizePath_eq_iff path
  constructor
  · intro accepted
    cases normalised : normalizePath path with
    | error problem =>
        rw [normalised] at accepted
        cases accepted
    | ok remotePath =>
        rw [normalised] at accepted ready acks
        change admitPath options rewritten remotePath = _ at accepted
        rw [admitPath, take_one_eq] at accepted
        simp only [decide_eq_true_eq, decide_eq_false_iff_not] at accepted
        split at accepted
        next isReady =>
          cases accepted
          exact ⟨rfl, .read isReady.1 (ready.mp (congrArg _ isReady.2))⟩
        next =>
          split at accepted
          next isAcks =>
            cases accepted
            exact ⟨rfl, .write isAcks.1 (acks.mp (congrArg _ isAcks.2))⟩
          next => cases accepted
  · rintro ⟨isJoined, admitted⟩
    cases isJoined
    cases admitted with
    | read sends leads =>
        rw [ready.mpr leads]
        change admitPath options rewritten _ = _
        rw [admitPath, take_one_eq]
        exact if_pos ⟨decide_eq_true sends, rfl⟩
    | write receives leads =>
        rw [acks.mpr leads]
        change admitPath options rewritten _ = _
        rw [admitPath, take_one_eq]
        refine (if_neg fun isReady => ?_).trans
          (if_pos ⟨decide_eq_false receives, rfl⟩)
        exact receives (of_decide_eq_true isReady.1)

/-- The first place of a word. -/
theorem idxOf?_eq_some_iff_split
    {arguments : List (List Char)} {word : List Char} {separator : Nat} :
    arguments.idxOf? word = some separator ↔
      ∃ before after, arguments = before ++ word :: after ∧
        word ∉ before ∧ separator = before.length := by
  induction arguments generalizing separator with
  | nil => simp
  | cons first arguments induction =>
      rw [List.idxOf?_cons]
      by_cases isWord : first = word
      · subst isWord
        simp only [beq_self_eq_true, if_true, Option.some.injEq]
        constructor
        · rintro rfl
          exact ⟨[], arguments, rfl, List.not_mem_nil, rfl⟩
        · rintro ⟨before, after, isSplit, notBefore, rfl⟩
          cases before with
          | nil => rfl
          | cons other before =>
              exact absurd (List.cons.inj isSplit).1
                fun same => notBefore (same ▸ List.mem_cons_self)
      · rw [if_neg (by simpa using isWord)]
        simp only [Option.map_eq_some_iff, induction]
        constructor
        · rintro ⟨_, ⟨before, after, rfl, notBefore, rfl⟩, rfl⟩
          refine ⟨first :: before, after, rfl, ?_, rfl⟩
          rw [List.mem_cons, not_or]
          exact ⟨fun same => isWord same.symm, notBefore⟩
        · rintro ⟨before, after, isSplit, notBefore, rfl⟩
          cases before with
          | nil => exact absurd (List.cons.inj isSplit).1 isWord
          | cons other before =>
              rcases List.cons.inj isSplit with ⟨rfl, rfl⟩
              exact ⟨_, ⟨before, after, rfl,
                fun earlier => notBefore (List.mem_cons_of_mem _ earlier),
                rfl⟩, rfl⟩

theorem restrictArguments_ok_iff
    {arguments : List (List Char)} {result : RestrictedCommand} :
    restrictArguments arguments = .ok result ↔
      ∃ options path, arguments = options ++ [hereComponent, path] ∧
        hereComponent ∉ options ∧
        result.originalCommand =
          shellJoin (serverCommand options hereComponent) ∧
        Admitted options path result.rrsyncArguments := by
  unfold restrictArguments
  cases found : arguments.idxOf? hereComponent with
  | none =>
      constructor
      · intro accepted
        cases accepted
      · rintro ⟨options, path, rfl, -⟩
        rw [List.idxOf?_eq_none_iff] at found
        exact absurd (by simp) found
  | some separator =>
      rcases idxOf?_eq_some_iff_split.mp found with
        ⟨options, after, rfl, noDot, rfl⟩
      have behind : (options ++ hereComponent :: after).drop
          (options.length + 1) = after := by
        rw [List.append_cons]
        exact List.drop_left' (by simp)
      have upTo : (options ++ hereComponent :: after).take
          (options.length + 1) = options ++ [hereComponent] := by
        rw [List.append_cons]
        exact List.take_left' (by simp)
      simp only [behind, upTo, List.take_left]
      have unique : ∀ {others : List (List Char)} {path : PathText},
          options ++ hereComponent :: after =
              others ++ [hereComponent, path] →
            hereComponent ∉ others → others = options ∧ after = [path] := by
        intro others path same noOtherDot
        have place := idxOf?_eq_some_iff_split.mpr
          ⟨others, [path], same, noOtherDot, rfl⟩
        rw [found, Option.some.injEq] at place
        rcases List.append_inj same place with ⟨rfl, isRest⟩
        exact ⟨rfl, (List.cons.inj isRest).2⟩
      split
      next path =>
        rw [show (do
            let remotePath ← normalizePath path
            admitPath options
              ([rsyncWord, serverWord] ++ (options ++ [hereComponent]) ++
                [hereComponent]) remotePath) =
          (normalizePath path >>= admitPath options
            (serverCommand options hereComponent)) by
              simp [serverCommand], admitPath_ok_iff]
        constructor
        · rintro ⟨isJoined, admitted⟩
          exact ⟨options, path, rfl, noDot, isJoined, admitted⟩
        · rintro ⟨others, other, same, noOtherDot, accepted⟩
          rcases unique same noOtherDot with ⟨rfl, isPath⟩
          cases isPath
          exact accepted
      next several =>
        constructor
        · intro accepted
          cases accepted
        · rintro ⟨others, other, same, noOtherDot, -⟩
          exact absurd (unique same noOtherDot).2 (several other)

theorem restrictWords_ok_iff
    {arguments : List (List Char)} {result : RestrictedCommand} :
    restrictWords arguments = .ok result ↔
      ∃ options path, arguments = serverCommand options path ∧
        hereComponent ∉ options ∧
        result.originalCommand =
          shellJoin (serverCommand options hereComponent) ∧
        Admitted options path result.rrsyncArguments := by
  unfold restrictWords
  by_cases begins : arguments.take 2 = [rsyncWord, serverWord]
  · rw [if_neg (not_not_intro begins), restrictArguments_ok_iff]
    have isWhole := List.take_append_drop 2 arguments
    rw [begins] at isWhole
    constructor
    · rintro ⟨options, path, isRest, accepted⟩
      rw [isRest] at isWhole
      exact ⟨options, path, isWhole.symm, accepted⟩
    · rintro ⟨options, path, rfl, accepted⟩
      exact ⟨options, path, rfl, accepted⟩
  · rw [if_pos begins]
    constructor
    · intro accepted
      cases accepted
    · rintro ⟨options, path, rfl, -⟩
      exact absurd rfl begins

/--
A command is admitted exactly if it starts the rsync server with one path which
leads, without leaving the root on its way, to `ready` for a sender or to
`control/acks` for a receiver.  The options are kept, the path becomes a dot,
and `rrsync` is bound to that directory.
-/
theorem restrictCommand_ok_iff
    (command : List Char) (result : RestrictedCommand) :
    restrictCommand command = .ok result ↔
      ∃ options path,
        shellSplit command = .ok (serverCommand options path) ∧
        hereComponent ∉ options ∧
        result.originalCommand =
          shellJoin (serverCommand options hereComponent) ∧
        Admitted options path result.rrsyncArguments := by
  unfold restrictCommand
  cases words : shellSplit command with
  | error problem =>
      constructor
      · intro accepted
        cases accepted
      · rintro ⟨options, path, isSplit, -⟩
        cases isSplit
  | ok arguments =>
      simp only [restrictWords_ok_iff, Except.ok.injEq]

/-! ## The commands of the central machine -/

/-- `PurePosixPath.parts` of a relative path. -/
def purePosixParts (path : PathText) : List PathText :=
  (pathComponents path).filter fun component =>
    ¬(component = [] ∨ component = hereComponent)

/-- `safe_remote_root`. -/
def safeRemoteRoot (value : PathText) : Option PathText :=
  if value.head? = some '/' ∨ parentComponent ∈ purePosixParts value then none
  else some (value.rdropWhile (· = '/'))

theorem purePosixParts_append_slash (path : PathText) :
    purePosixParts (path ++ ['/']) = purePosixParts path := by
  rw [purePosixParts, pathComponents, List.splitOn_append_cons_self,
    List.filter_append]
  exact List.append_nil _

/-- Slashes at the end are no parts. -/
theorem purePosixParts_rdropWhile (value : PathText) :
    purePosixParts (value.rdropWhile (· = '/')) = purePosixParts value := by
  induction value using List.reverseRecOn with
  | nil => rfl
  | append_singleton value last induction =>
      by_cases slash : last = '/'
      · subst slash
        rw [List.rdropWhile_concat_pos _ _ _ (by simp), induction,
          purePosixParts_append_slash]
      · rw [List.rdropWhile_concat_neg _ _ _ (by simpa using slash)]

theorem foldl_walkStep_parts
    {components : List PathText} (noParent : parentComponent ∉ components)
    (names : List PathText) :
    components.foldl walkStep (some names) =
      some (names ++ components.filter fun component =>
        ¬(component = [] ∨ component = hereComponent)) := by
  induction components generalizing names with
  | nil => simp
  | cons component components induction =>
      rw [List.mem_cons, not_or] at noParent
      by_cases here : component = [] ∨ component = hereComponent
      · rw [List.foldl_cons, walkStep, if_pos here, induction noParent.2,
          List.filter_cons, if_neg]
        rw [decide_eq_true_eq]
        exact not_not_intro here
      · rw [List.foldl_cons, walkStep, if_neg here,
          if_neg (Ne.symm noParent.1), induction noParent.2,
          List.filter_cons, if_pos (decide_eq_true here), List.append_assoc,
          List.singleton_append]

/-- A path without `..` leads to its parts. -/
theorem walk_eq_parts {path : PathText}
    (noParent : parentComponent ∉ purePosixParts path) :
    walk path = some (purePosixParts path) := by
  refine foldl_walkStep_parts (fun isComponent => noParent ?_) []
  exact List.mem_filter.mpr ⟨isComponent, by decide⟩

/-- A configured root leads to its parts. -/
theorem leadsBelow_root_iff
    {value root : PathText} {names : List PathText}
    (safe : safeRemoteRoot value = some root) (notNil : names ≠ []) :
    LeadsBelow (root ++ ['/']) names ↔ purePosixParts value = names := by
  unfold safeRemoteRoot at safe
  split at safe
  next => cases safe
  next safeValue =>
    rw [not_or] at safeValue
    have parts : purePosixParts (root ++ ['/']) = purePosixParts value := by
      rw [purePosixParts_append_slash, ← Option.some.inj safe,
        purePosixParts_rdropWhile]
    have leads : walk (root ++ ['/']) = some (purePosixParts value) := by
      rw [← parts]
      exact walk_eq_parts (by rw [parts]; exact safeValue.2)
    rw [LeadsBelow, leads, Option.some.injEq]
    refine ⟨And.right, fun same => ⟨?_, same⟩⟩
    cases root with
    | nil =>
        rw [← parts] at same
        exact absurd same.symm notNil
    | cons first rest =>
        -- A root begins as the value does, which is relative.
        intro absolute
        rcases List.rdropWhile_prefix (fun char => decide (char = '/')) value
          with ⟨slashes, isValue⟩
        rw [Option.some.inj safe] at isValue
        rw [← isValue] at safeValue
        exact safeValue.1 absolute

theorem serverCommand_inj
    {options others : List (List Char)} {path other : PathText}
    (same : serverCommand options path = serverCommand others other) :
    options = others ∧ path = other := by
  simp only [serverCommand, List.append_assoc] at same
  have rest := List.append_cancel_left same
  rcases List.append_inj' rest rfl with ⟨sameOptions, samePaths⟩
  exact ⟨sameOptions, (List.cons.inj (List.cons.inj samePaths).2).1⟩

/-- A command which starts a server is admitted with the options it has. -/
theorem restrictCommand_server_iff
    {command : List Char} {options arguments : List (List Char)}
    {path : PathText} (noDot : hereComponent ∉ options)
    (words : shellSplit command = .ok (serverCommand options path)) :
    (∃ result, restrictCommand command = .ok result ∧
        result.rrsyncArguments = arguments ∧
        shellSplit result.originalCommand =
          .ok (serverCommand options hereComponent)) ↔
      Admitted options path arguments := by
  simp only [restrictCommand, words, restrictWords_ok_iff]
  constructor
  · rintro ⟨result, ⟨others, other, same, -, -, admitted⟩, rfl, -⟩
    rcases serverCommand_inj same with ⟨rfl, rfl⟩
    exact admitted
  · intro admitted
    exact ⟨⟨shellJoin (serverCommand options hereComponent), arguments⟩,
      ⟨options, path, rfl, noDot, rfl, admitted⟩, rfl,
      shellSplit_shellJoin _⟩

theorem readArguments_ne_writeArguments : readArguments ≠ writeArguments := by
  decide

theorem admitted_read_iff {options : List (List Char)} {path : PathText} :
    Admitted options path readArguments ↔
      options.head? = some senderWord ∧ LeadsBelow path readyNames := by
  constructor
  · generalize isRead : readArguments = arguments
    intro admitted
    cases admitted with
    | read sends leads => exact ⟨sends, leads⟩
    | write => exact absurd isRead readArguments_ne_writeArguments
  · rintro ⟨sends, leads⟩
    exact .read sends leads

theorem admitted_write_iff {options : List (List Char)} {path : PathText} :
    Admitted options path writeArguments ↔
      options.head? ≠ some senderWord ∧ LeadsBelow path acksNames := by
  constructor
  · generalize isWrite : writeArguments = arguments
    intro admitted
    cases admitted with
    | read => exact absurd isWrite.symm readArguments_ne_writeArguments
    | write receives leads => exact ⟨receives, leads⟩
  · rintro ⟨receives, leads⟩
    exact .write receives leads

/--
The gateway admits a pull exactly if the configured root consists of `ready`,
and a push exactly if it consists of `control` and `acks`, however the root and
the command are written; `rrsync` is then given the options as rsync wrote them.
-/
theorem transport_admitted_iff
    {value root : PathText} (safe : safeRemoteRoot value = some root)
    {options : List (List Char)} (noDot : hereComponent ∉ options)
    (receives : options.head? ≠ some senderWord) {pull push : List Char}
    (pulls : shellSplit pull =
      .ok (serverCommand (senderWord :: options) (root ++ ['/'])))
    (pushes : shellSplit push =
      .ok (serverCommand options (root ++ ['/']))) :
    ((∃ result, restrictCommand pull = .ok result ∧
        result.rrsyncArguments = readArguments ∧
        shellSplit result.originalCommand =
          .ok (serverCommand (senderWord :: options) hereComponent)) ↔
      purePosixParts value = readyNames) ∧
    ((∃ result, restrictCommand push = .ok result ∧
        result.rrsyncArguments = writeArguments ∧
        shellSplit result.originalCommand =
          .ok (serverCommand options hereComponent)) ↔
      purePosixParts value = acksNames) := by
  constructor
  · have noDotBehind : hereComponent ∉ senderWord :: options := by
      rw [List.mem_cons, not_or]
      exact ⟨by decide, noDot⟩
    rw [restrictCommand_server_iff noDotBehind pulls,
      admitted_read_iff, leadsBelow_root_iff safe plainNames_ready.notNil]
    exact and_iff_right rfl
  · rw [restrictCommand_server_iff noDot pushes,
      admitted_write_iff, leadsBelow_root_iff safe plainNames_acks.notNil]
    exact and_iff_right receives

theorem safeRemoteRoot_dotted :
    safeRemoteRoot "./ready//".toList = some "./ready".toList := by
  decide

/-- The server of a pull, as rsync writes it. -/
def dottedPull : List Char :=
  "rsync --server --sender -logDtpre.iLsfxCIvu . ./ready/".toList

theorem shellSplit_dottedPull :
    shellSplit dottedPull =
      .ok (serverCommand (senderWord :: ["-logDtpre.iLsfxCIvu".toList])
        ("./ready".toList ++ ['/'])) := by
  decide +kernel

/-- A root which is written with a dot and slashes. -/
theorem transport_admitted_dotted :
    ∃ result, restrictCommand dottedPull = .ok result ∧
      result.rrsyncArguments = readArguments ∧
      shellSplit result.originalCommand =
        .ok (serverCommand (senderWord :: ["-logDtpre.iLsfxCIvu".toList])
          hereComponent) :=
  (transport_admitted_iff safeRemoteRoot_dotted (by decide) (by decide)
    shellSplit_dottedPull (shellSplit_shellJoin _)).1.mpr (by decide)

end ShadowDataPlane.Transfer
