import ShadowDataPlane.Edge.SubscriptionConnection

/-!
# Requests in blocks

The requests without a reply fall into blocks: the initial subscription, an
audit, or what is left of an update.  As replies come in the order of the
requests, the next one always belongs to the first block.  `Tracks` says that
the connection remembers the blocks, and that its streams are those which the
answered requests ask for, but for a first block which is half answered.
-/

namespace ShadowDataPlane.Edge.SubscriptionAudit

open ShadowDataPlane.Foundation

/-! ## The requests which are not yet acknowledged -/

/-- The streams which requests ask for, one after another. -/
def requested (requests : List Request) : Finset String :=
  requests.foldl Request.apply ∅

/-- Requests which the connection counts together. -/
structure Block where
  requests : List Request
  /-- The update which they belong to. -/
  pending : Option PendingSubscriptionUpdate

namespace Block

/-- What the connection makes of its streams when the block is settled. -/
def result (block : Block) (streams : Finset String) : Finset String :=
  match block.pending with
  | none => streams
  | some pending =>
      (streams \ pending.remove.toFinset) ∪ pending.add.toFinset

/-- The requests do what the connection counts. -/
def Regular (block : Block) : Prop :=
  ∀ streams, block.requests.foldl Request.apply streams = block.result streams

/-- A request on its own, or those left of an update. -/
structure Sound (block : Block) : Prop where
  nonempty : block.requests ≠ []
  single : block.pending = none → ∃ request, block.requests = [request]
  remaining : ∀ pending ∈ block.pending,
    pending.remainingIds = block.requests.map Request.id
  changing : block.pending ≠ none → ∀ request ∈ block.requests,
    request.method ≠ .listSubscriptions

end Block

/-- The streams of the connection, given what the received replies make. -/
def Agrees (connection : Connection) (settled : Finset String) :
    List Block → Prop
  | [] => settled = connection.activeSubscriptions
  | block :: _ =>
      block.requests.foldl Request.apply settled =
        block.result connection.activeSubscriptions

/-- The connection remembers the requests without a reply, in blocks. -/
structure Tracks (run : ConnectionRun) (blocks : List Block) : Prop where
  outstanding : run.sent.drop run.received = blocks.flatMap Block.requests
  sound : ∀ block ∈ blocks, block.Sound
  regular : ∀ block ∈ blocks.tail, block.Regular
  agrees :
    Agrees run.connection (requested (run.sent.take run.received)) blocks
  updates : ∀ id pending,
    run.connection.pendingUpdates.get? id = some pending ↔
      ∃ block ∈ blocks, block.pending = some pending ∧
        id ∈ block.requests.map Request.id
  audits : run.connection.pendingAudits =
    ((run.sent.drop run.received).filter fun request =>
      request.method = .listSubscriptions).map Request.id

/-- The requests are numbered one after another. -/
structure Numbered (run : ConnectionRun) : Prop where
  ids : ∃ first, run.sent.map Request.id =
      List.range' first run.sent.length ∧
    run.connection.subscriptionId + 1 = first + run.sent.length

/-- A reply to a request, where the requests before it ask for these streams. -/
structure Answers (streams : Finset String) (request : Request)
    (answer : Answer) : Prop where
  id : answer.reply.id = request.id
  accepted : answer.reply.code = none
  listed : request.method = .listSubscriptions → ∃ order,
    answer.reply.result = some order ∧
      order.toFinset = symmDiff streams answer.drifted

/-- The server processed the requests in their order. -/
structure Served (run : ConnectionRun) : Prop where
  holds : run.server.holds =
    symmDiff (requested (run.sent.take run.answers.length))
      run.server.drifted
  answered : ∀ index answer, run.answers[index]? = some answer →
    ∃ request, run.sent[index]? = some request ∧
      Answers (requested (run.sent.take index)) request answer
  processed : run.answers.length ≤ run.sent.length
  received : run.received ≤ run.answers.length

/-! ## Requests of an update -/

theorem map_id_numberRequests
    (subscriptionId : Nat) (parts : List (Method × List String)) :
    (numberRequests subscriptionId parts).map Request.id =
      List.range' (subscriptionId + 1)
        (numberRequests subscriptionId parts).length := by
  induction parts generalizing subscriptionId with
  | nil => rfl
  | cons part rest induction =>
      rcases part with ⟨method, streams⟩
      rw [numberRequests]
      split
      next => exact induction subscriptionId
      next =>
        rw [List.map_cons, List.length_cons, List.range'_succ, induction]

theorem numberRequests_regular
    (subscriptionId : Nat) (add remove : List String)
    (streams : Finset String) :
    (numberRequests subscriptionId
        [(.unsubscribe, remove), (.subscribe, add)]).foldl Request.apply
        streams =
      (streams \ remove.toFinset) ∪ add.toFinset := by
  by_cases noRemove : remove = []
  · by_cases noAdd : add = []
    · simp [numberRequests, noRemove, noAdd]
    · simp [numberRequests, noRemove, noAdd, Request.apply]
  · by_cases noAdd : add = []
    · simp [numberRequests, noRemove, noAdd, Request.apply]
    · simp [numberRequests, noRemove, noAdd, Request.apply]

theorem numberRequests_changing
    {subscriptionId : Nat} {add remove : List String} {request : Request}
    (member : request ∈ numberRequests subscriptionId
      [(.unsubscribe, remove), (.subscribe, add)]) :
    request.method ≠ .listSubscriptions := by
  simp only [numberRequests] at member
  split at member
  next =>
    split at member
    next => cases member
    next =>
      rw [List.mem_singleton.mp member]
      simp
  next =>
    rcases List.mem_cons.mp member with rfl | member
    · simp
    · split at member
      next => cases member
      next =>
        rw [List.mem_singleton.mp member]
        simp

/-! ## Numbers -/

theorem requested_concat (requests : List Request) (request : Request) :
    requested (requests ++ [request]) = request.apply (requested requests) := by
  rw [requested, List.foldl_append]
  rfl

namespace Numbered

variable {run : ConnectionRun}

theorem distinct (numbered : Numbered run) :
    (run.sent.map Request.id).Nodup := by
  rcases numbered.ids with ⟨first, ids, _⟩
  rw [ids]
  exact List.nodup_range'

/-- The requests so far have no higher number. -/
theorem le (numbered : Numbered run) {id : Nat}
    (member : id ∈ run.sent.map Request.id) :
    id ≤ run.connection.subscriptionId := by
  rcases numbered.ids with ⟨first, ids, current⟩
  rw [ids, List.mem_range'_1] at member
  omega

theorem append
    (numbered : Numbered run) {connection : Connection}
    {requests : List Request}
    (ids : requests.map Request.id =
      List.range' (run.connection.subscriptionId + 1) requests.length)
    (current : connection.subscriptionId =
      run.connection.subscriptionId + requests.length) :
    Numbered (run.advance (connection, requests)) := by
  rcases numbered.ids with ⟨first, old, before⟩
  refine ⟨first, ?_, ?_⟩
  · rw [ConnectionRun.advance, List.map_append, old, ids, before,
      List.length_append, List.range'_append_1]
  · simp only [ConnectionRun.advance, List.length_append, current]
    omega

end Numbered

/-! ## New requests -/

theorem Agrees.of_eq
    {connection : Connection} {settled : Finset String} {blocks : List Block}
    (same : settled = connection.activeSubscriptions)
    (regular : ∀ block ∈ blocks, block.Regular) :
    Agrees connection settled blocks := by
  cases blocks with
  | nil => exact same
  | cons block rest =>
      rw [Agrees, regular block List.mem_cons_self, same]

namespace Tracks

variable {run : ConnectionRun} {blocks : List Block}

/-- The connection changed nothing which concerns its requests. -/
theorem congr
    (tracks : Tracks run blocks) {connection : Connection}
    (updates : connection.pendingUpdates = run.connection.pendingUpdates)
    (audits : connection.pendingAudits = run.connection.pendingAudits)
    (active : connection.activeSubscriptions =
      run.connection.activeSubscriptions) :
    Tracks (run.advance (connection, [])) blocks where
  outstanding := by
    rw [ConnectionRun.advance, List.append_nil]
    exact tracks.outstanding
  sound := tracks.sound
  regular := tracks.regular
  agrees := by
    have agrees := tracks.agrees
    rw [ConnectionRun.advance, List.append_nil]
    cases blocks with
    | nil => exact agrees.trans active.symm
    | cons block rest =>
        rw [Agrees] at agrees ⊢
        rw [agrees, active]
  updates := by
    rw [ConnectionRun.advance, updates]
    exact tracks.updates
  audits := by
    rw [ConnectionRun.advance, List.append_nil, audits]
    exact tracks.audits

/-- The connection sent a block. -/
theorem append
    (tracks : Tracks run blocks) (received : run.received ≤ run.sent.length)
    {block : Block} (sound : block.Sound) (regular : block.Regular)
    {connection : Connection}
    (updates : ∀ id pending,
      connection.pendingUpdates.get? id = some pending ↔
        run.connection.pendingUpdates.get? id = some pending ∨
          block.pending = some pending ∧
            id ∈ block.requests.map Request.id)
    (audits : connection.pendingAudits =
      run.connection.pendingAudits ++ (block.requests.filter fun request =>
        request.method = .listSubscriptions).map Request.id)
    (active : connection.activeSubscriptions =
      run.connection.activeSubscriptions) :
    Tracks (run.advance (connection, block.requests)) (blocks ++ [block]) where
  outstanding := by
    rw [ConnectionRun.advance, List.drop_append_of_le_length received,
      tracks.outstanding, List.flatMap_append, List.flatMap_singleton]
  sound := by
    intro other member
    rcases List.mem_append.mp member with old | new
    · exact tracks.sound other old
    · rw [List.mem_singleton.mp new]
      exact sound
  regular := by
    intro other member
    cases blocks with
    | nil => cases member
    | cons head rest =>
        rcases List.mem_append.mp member with old | new
        · exact tracks.regular other old
        · rw [List.mem_singleton.mp new]
          exact regular
  agrees := by
    have agrees := tracks.agrees
    rw [ConnectionRun.advance, List.take_append_of_le_length received]
    cases blocks with
    | nil =>
        rw [List.nil_append, Agrees, regular, active, ← agrees]
    | cons head rest =>
        rw [List.cons_append]
        rw [Agrees] at agrees ⊢
        rw [agrees, active]
  updates := by
    intro id pending
    rw [ConnectionRun.advance, updates, tracks.updates]
    simp only [List.mem_append, List.mem_singleton, or_and_right,
      exists_or, exists_eq_left]
  audits := by
    rw [ConnectionRun.advance, List.drop_append_of_le_length received,
      List.filter_append, List.map_append, audits, tracks.audits]

/-- The number of an update which waits for replies was given before. -/
theorem id_mem_sent
    (tracks : Tracks run blocks) {id : Nat}
    {pending : PendingSubscriptionUpdate}
    (bound : run.connection.pendingUpdates.get? id = some pending) :
    id ∈ run.sent.map Request.id := by
  rcases (tracks.updates id pending).mp bound with ⟨block, member, _, isId⟩
  rcases List.mem_map.mp isId with ⟨request, inBlock, rfl⟩
  apply List.mem_map_of_mem
  apply List.mem_of_mem_drop (i := run.received)
  rw [tracks.outstanding]
  exact List.mem_flatMap.mpr ⟨block, member, inBlock⟩

theorem takeUpdate
    (tracks : Tracks run blocks) (numbered : Numbered run)
    (received : run.received ≤ run.sent.length)
    (update : SubscriptionUpdate) (rest : List SubscriptionUpdate) :
    ∃ blocks, Tracks
      (run.advance (run.connection.takeUpdate update rest)) blocks := by
  have ids := map_id_numberRequests run.connection.subscriptionId
    [(.unsubscribe, update.remove), (.subscribe, update.add)]
  have regular := numberRequests_regular run.connection.subscriptionId
    update.add update.remove
  have changing : ∀ request ∈ numberRequests run.connection.subscriptionId
      [(.unsubscribe, update.remove), (.subscribe, update.add)],
      request.method ≠ .listSubscriptions :=
    fun _ member => numberRequests_changing member
  unfold Connection.takeUpdate
  split
  next => exact ⟨blocks, tracks.congr rfl rfl rfl⟩
  next =>
    generalize numberRequests run.connection.subscriptionId
      [(.unsubscribe, update.remove), (.subscribe, update.add)] = requests
      at ids regular changing
    cases requests with
    | nil => exact ⟨blocks, tracks.congr rfl rfl rfl⟩
    | cons request others =>
        let block : Block := {
          requests := request :: others
          pending := some {
            remainingIds := (request :: others).map Request.id
            add := update.add
            remove := update.remove
            snapshotRequests := update.snapshotRequests
            ticket := update.ticket } }
        have sound : block.Sound := by
          constructor
          · exact List.cons_ne_nil _ _
          · rintro ⟨⟩
          · rintro pending ⟨⟩
            rfl
          · exact fun _ => changing
        refine ⟨blocks ++ [block],
          tracks.append received sound regular ?_ ?_ rfl⟩
        · intro id pending
          rw [Dict.get?_foldl_set]
          split
          next isNew =>
            have unbound : run.connection.pendingUpdates.get? id = none := by
              cases bound : run.connection.pendingUpdates.get? id with
              | none => rfl
              | some other =>
                  have old := numbered.le (tracks.id_mem_sent bound)
                  rw [ids, List.mem_range'_1] at isNew
                  omega
            rw [unbound]
            constructor
            · intro same
              exact .inr ⟨same, isNew⟩
            · rintro (⟨⟨⟩⟩ | ⟨same, _⟩)
              exact same
          next isOld =>
            constructor
            · exact .inl
            · rintro (bound | ⟨_, isNew⟩)
              · exact bound
              · exact absurd isNew isOld
        · have none : (block.requests.filter fun request =>
              request.method = .listSubscriptions) = [] := by
            rw [List.filter_eq_nil_iff]
            intro other member
            simpa using changing other member
          rw [none, List.map_nil, List.append_nil]

theorem auditDue
    (tracks : Tracks run blocks)
    (received : run.received ≤ run.sent.length) :
    ∃ blocks, Tracks (run.advance run.connection.auditDue) blocks := by
  unfold Connection.auditDue
  split
  next => exact ⟨blocks, tracks.congr rfl rfl rfl⟩
  next =>
    split
    next =>
      let block : Block := {
        requests := [{
          method := .listSubscriptions
          params := []
          id := run.connection.subscriptionId + 1 }]
        pending := none }
      have sound : block.Sound := by
        constructor
        · exact List.cons_ne_nil _ _
        · exact fun _ => ⟨_, rfl⟩
        · rintro pending ⟨⟩
        · exact fun isSome => absurd rfl isSome
      refine ⟨blocks ++ [block],
        tracks.append received sound (fun _ => rfl) ?_ rfl rfl⟩
      intro id pending
      simp [block]
    next => exact ⟨blocks, tracks.congr rfl rfl rfl⟩

end Tracks

/-! ## Replies -/

namespace Connection

variable {connection : Connection} {reply : ControlReply}

/-- A reply which is not awaited changes nothing. -/
theorem receive_of_unknown
    (accepted : reply.code = none) (alive : connection.error = none)
    (noAudit : reply.id ∉ connection.pendingAudits)
    (noUpdate : connection.pendingUpdates.get? reply.id = none) :
    connection.receive reply = connection := by
  rw [receive, if_neg (by simp [accepted]), receiveAudit, if_neg noAudit]
  simp only [alive, ne_eq, not_true_eq_false, if_false, receiveUpdate,
    noUpdate]

theorem receive_of_audit
    (accepted : reply.code = none)
    (isAudit : reply.id ∈ connection.pendingAudits)
    (noUpdate : connection.pendingUpdates.get? reply.id = none) :
    connection.receive reply = connection.receiveAudit reply := by
  rw [receive, if_neg (by simp [accepted])]
  simp only
  split
  next => rfl
  next =>
    have same : (connection.receiveAudit reply).pendingUpdates =
        connection.pendingUpdates := by
      rw [receiveAudit, if_pos isAudit]
    rw [receiveUpdate, same, noUpdate]

theorem receive_of_update
    (accepted : reply.code = none) (alive : connection.error = none)
    (noAudit : reply.id ∉ connection.pendingAudits) :
    connection.receive reply = connection.receiveUpdate reply := by
  rw [receive, if_neg (by simp [accepted]), receiveAudit, if_neg noAudit]
  simp only [alive, ne_eq, not_true_eq_false, if_false]

end Connection

/-- The run after the connection took the next reply. -/
def ConnectionRun.took (run : ConnectionRun) (connection : Connection) :
    ConnectionRun :=
  { run.advance (connection, []) with received := run.received + 1 }

/-- The next reply is to the first request of the first block. -/
structure HeadBlock (run : ConnectionRun) (request : Request) (block : Block)
    (left : List Request) (rest : List Block) : Prop where
  requests : block.requests = request :: left
  outstanding : run.sent.drop (run.received + 1) =
    left ++ rest.flatMap Block.requests
  settled : requested (run.sent.take (run.received + 1)) =
    request.apply (requested (run.sent.take run.received))
  audits : run.connection.pendingAudits =
    ((request :: (left ++ rest.flatMap Block.requests)).filter
      fun request => request.method = .listSubscriptions).map Request.id
  distinct : ((request ::
    (left ++ rest.flatMap Block.requests)).map Request.id).Nodup

namespace Tracks

variable {run : ConnectionRun} {blocks : List Block}

theorem exists_headBlock
    (tracks : Tracks run blocks) (numbered : Numbered run)
    {request : Request} (isNext : run.sent[run.received]? = some request) :
    ∃ block left rest, blocks = block :: rest ∧
      HeadBlock run request block left rest := by
  have dropped : run.sent.drop run.received =
      request :: run.sent.drop (run.received + 1) :=
    List.drop_eq_getElem?_toList_append.trans (by rw [isNext]; rfl)
  have outstanding := tracks.outstanding
  rw [dropped] at outstanding
  cases blocks with
  | nil => cases outstanding
  | cons block rest =>
      have sound := tracks.sound block List.mem_cons_self
      cases requests : block.requests with
      | nil => exact absurd requests sound.nonempty
      | cons head left =>
          rw [List.flatMap_cons, requests, List.cons_append] at outstanding
          rcases List.cons.inj outstanding with ⟨rfl, remain⟩
          refine ⟨block, left, rest, rfl, requests, remain, ?_, ?_, ?_⟩
          · rw [List.take_add_one, isNext]
            exact requested_concat _ _
          · rw [tracks.audits, dropped, remain]
          · have distinct := numbered.distinct.sublist
              ((List.drop_sublist run.received run.sent).map Request.id)
            rwa [dropped, remain] at distinct

section Head

variable {request : Request} {block : Block} {left : List Request}
  {rest : List Block}

/-- The number of the answered request belongs to no other update. -/
theorem not_mem_rest
    (head : HeadBlock run request block left rest) {other : Block}
    (member : other ∈ rest) :
    request.id ∉ other.requests.map Request.id := by
  intro isId
  rcases List.mem_map.mp isId with ⟨later, inBlock, same⟩
  apply (List.nodup_cons.mp head.distinct).1
  rw [← same]
  exact List.mem_map_of_mem (List.mem_append_right _
    (List.mem_flatMap.mpr ⟨other, member, inBlock⟩))

/-- The numbers of the requests which are left belong to no other update. -/
theorem not_mem_rest_of_left
    (head : HeadBlock run request block left rest) {other : Block}
    (member : other ∈ rest) {id : Nat} (isLeft : id ∈ left.map Request.id) :
    id ∉ other.requests.map Request.id := by
  intro isId
  rcases List.mem_map.mp isId with ⟨later, inBlock, same⟩
  have distinct := (List.nodup_cons.mp head.distinct).2
  rw [List.map_append] at distinct
  refine (List.nodup_append.mp distinct).2.2 id isLeft later.id ?_ same.symm
  exact List.mem_map_of_mem (List.mem_flatMap.mpr ⟨other, member, inBlock⟩)

/-- No update waits for the reply to a request on its own. -/
theorem get?_of_single
    (tracks : Tracks run (block :: rest))
    (head : HeadBlock run request block left rest)
    (single : block.pending = none) :
    run.connection.pendingUpdates.get? request.id = none := by
  cases bound : run.connection.pendingUpdates.get? request.id with
  | none => rfl
  | some pending =>
      rcases (tracks.updates _ _).mp bound with ⟨other, member, isSome, isId⟩
      rcases List.mem_cons.mp member with rfl | inRest
      · rw [single] at isSome
        cases isSome
      · exact absurd isId (not_mem_rest head inRest)

/-- The last reply of a block settles it. -/
theorem settle
    (tracks : Tracks run (block :: rest))
    (head : HeadBlock run request block left rest) (last : left = [])
    {connection : Connection}
    (updates : ∀ id pending,
      connection.pendingUpdates.get? id = some pending ↔
        ∃ block ∈ rest, block.pending = some pending ∧
          id ∈ block.requests.map Request.id)
    (audits : connection.pendingAudits =
      ((rest.flatMap Block.requests).filter fun request =>
        request.method = .listSubscriptions).map Request.id)
    (active : connection.activeSubscriptions =
      block.result run.connection.activeSubscriptions) :
    Tracks (run.took connection) rest := by
  subst last
  have agrees := tracks.agrees
  rw [Agrees, head.requests, List.foldl_cons, List.foldl_nil,
    ← head.settled] at agrees
  constructor
  · rw [ConnectionRun.took, ConnectionRun.advance, List.append_nil]
    exact head.outstanding
  · exact fun other member =>
      tracks.sound other (List.mem_cons_of_mem _ member)
  · exact fun other member =>
      tracks.regular other (List.mem_of_mem_tail member)
  · rw [ConnectionRun.took, ConnectionRun.advance, List.append_nil]
    exact Agrees.of_eq (agrees.trans active.symm) tracks.regular
  · exact updates
  · rw [ConnectionRun.took, ConnectionRun.advance, List.append_nil,
      head.outstanding]
    exact audits

/-- The reply to a request on its own. -/
theorem took_single
    (tracks : Tracks run (block :: rest))
    (head : HeadBlock run request block left rest)
    (single : block.pending = none) {connection : Connection}
    (updates : connection.pendingUpdates = run.connection.pendingUpdates)
    (audits : connection.pendingAudits =
      ((left ++ rest.flatMap Block.requests).filter fun request =>
        request.method = .listSubscriptions).map Request.id)
    (active : connection.activeSubscriptions =
      run.connection.activeSubscriptions) :
    Tracks (run.took connection) rest := by
  have sound := tracks.sound block List.mem_cons_self
  have alone : left = [] := by
    rcases sound.single single with ⟨only, requests⟩
    rw [head.requests] at requests
    exact (List.cons.inj requests).2
  refine tracks.settle head alone ?_ ?_ ?_
  · intro id pending
    rw [updates, tracks.updates]
    simp [single]
  · rw [audits, alone, List.nil_append]
  · rw [active, Block.result, single]

/-- What the connection remembers of updates after a reply to one. -/
theorem get?_after_reply
    (tracks : Tracks run (block :: rest))
    (head : HeadBlock run request block left rest)
    (remembered : PendingSubscriptionUpdate) (id : Nat)
    (other : PendingSubscriptionUpdate) :
    ((left.map Request.id).foldl
        (fun pendingUpdates id => pendingUpdates.set id remembered)
        (run.connection.pendingUpdates.erase request.id)).get? id =
      some other ↔
    other = remembered ∧ id ∈ left.map Request.id ∨
      ∃ block ∈ rest, block.pending = some other ∧
        id ∈ block.requests.map Request.id := by
  rw [Dict.get?_foldl_set, Dict.get?_erase]
  split
  next isLeft =>
    constructor
    · intro same
      exact .inl ⟨(Option.some.inj same).symm, isLeft⟩
    · rintro (⟨same, _⟩ | ⟨block, member, _, isId⟩)
      · rw [same]
      · exact absurd isId (not_mem_rest_of_left head member isLeft)
  next notLeft =>
    split
    next isRequest =>
      subst isRequest
      constructor
      · rintro ⟨⟩
      · rintro (⟨_, isLeft⟩ | ⟨block, member, _, isId⟩)
        · exact absurd isLeft notLeft
        · exact absurd isId (not_mem_rest head member)
    next notRequest =>
      rw [tracks.updates, List.exists_mem_cons_iff, head.requests,
        List.map_cons, List.mem_cons]
      simp only [notRequest, notLeft, or_self, and_false, false_or]

/-- The reply to a request of an update, of which others may be left. -/
theorem took_update
    (tracks : Tracks run (block :: rest))
    (head : HeadBlock run request block left rest)
    {pending : PendingSubscriptionUpdate}
    (isUpdate : block.pending = some pending) {reply : ControlReply}
    (isReply : reply.id = request.id) :
    ∃ blocks, Tracks
      (run.took (run.connection.receiveUpdate reply)) blocks := by
  have sound := tracks.sound block List.mem_cons_self
  have bound : run.connection.pendingUpdates.get? reply.id = some pending :=
    (tracks.updates _ _).mpr ⟨block, List.mem_cons_self, isUpdate, by
      rw [head.requests, isReply]
      exact List.mem_cons_self⟩
  have remaining :
      pending.remainingIds.erase reply.id = left.map Request.id := by
    rw [sound.remaining pending isUpdate, head.requests, isReply,
      List.map_cons, List.erase_cons_head]
  have changing := sound.changing (by rw [isUpdate]; simp)
  rw [head.requests, List.forall_mem_cons] at changing
  have audits := head.audits
  rw [List.filter_cons_of_neg (by simpa using changing.1)] at audits
  let remembered : PendingSubscriptionUpdate :=
    { pending with remainingIds := left.map Request.id }
  have lookups := tracks.get?_after_reply head remembered
  rw [← isReply] at lookups
  simp only [Connection.receiveUpdate, bound, remaining]
  split
  next last =>
    rw [List.map_eq_nil_iff] at last
    subst last
    refine ⟨rest, tracks.settle head rfl ?_ audits ?_⟩
    · intro id other
      refine (lookups id other).trans ?_
      simp
    · rw [Block.result, isUpdate]
      rfl
  next more =>
    let others : Block := { requests := left, pending := some remembered }
    have agrees := tracks.agrees
    rw [Agrees, head.requests, List.foldl_cons, ← head.settled] at agrees
    refine ⟨others :: rest, ?_, ?_, tracks.regular, ?_, ?_, ?_⟩
    · rw [ConnectionRun.took, ConnectionRun.advance, List.append_nil]
      exact head.outstanding
    · intro other member
      rcases List.mem_cons.mp member with rfl | inRest
      · constructor
        · simpa using more
        · rintro ⟨⟩
        · rintro _ ⟨⟩
          rfl
        · exact fun _ => changing.2
      · exact tracks.sound other (List.mem_cons_of_mem _ inRest)
    · rw [ConnectionRun.took, ConnectionRun.advance, List.append_nil]
      refine agrees.trans ?_
      rw [Block.result, isUpdate]
      rfl
    · intro id other
      refine (lookups id other).trans ?_
      rw [List.exists_mem_cons_iff]
      exact or_congr_left (and_congr_left' (by
        rw [Option.some.injEq, eq_comm]))
    · rw [ConnectionRun.took, ConnectionRun.advance, List.append_nil,
        head.outstanding]
      exact audits

end Head

end Tracks

end ShadowDataPlane.Edge.SubscriptionAudit
