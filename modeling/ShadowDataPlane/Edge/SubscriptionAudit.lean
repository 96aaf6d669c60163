import ShadowDataPlane.Edge.SubscriptionBlocks

/-!
# Subscription audits

A reply to an audit is compared with the streams of the connection when all
earlier replies have come, so that both are what the requests before the audit
make, but for what drifted on the server.  Updates may be sent while an audit
is under way, and their callers may give up: neither disturbs the comparison.

An audit sees what the server holds when it answers.  A stream which it dropped
and a later update subscribed again was gone without a trace.
-/

namespace ShadowDataPlane.Edge.SubscriptionAudit

open ShadowDataPlane.Foundation

/-! ## The server -/

/-- A request repairs the streams which it names. -/
theorem Request.apply_symmDiff
    (request : Request) (streams drifted : Finset String) :
    request.apply (symmDiff streams drifted) =
      symmDiff (request.apply streams) (drifted \ request.names) := by
  rcases request with ⟨method, params, id⟩
  ext stream
  cases method with
  | listSubscriptions => simp [Request.apply, Request.names]
  | subscribe =>
      simp only [Request.apply, Request.names, Finset.mem_union,
        Finset.mem_symmDiff, Finset.mem_sdiff]
      tauto
  | unsubscribe =>
      simp only [Request.apply, Request.names, Finset.mem_symmDiff,
        Finset.mem_sdiff]
      tauto

theorem Server.answer_answers
    {server : Server} {request : Request} {order : List String}
    {answer : Answer} {streams : Finset String}
    (holds : server.holds = symmDiff streams server.drifted)
    (answered : server.answer request order = some answer) :
    Answers streams request answer := by
  rcases request with ⟨method, params, id⟩
  cases method with
  | listSubscriptions =>
      simp only [Server.answer] at answered
      split at answered
      next listed =>
        cases answered
        refine ⟨rfl, rfl, fun _ => ⟨order, rfl, ?_⟩⟩
        rw [listed, holds]
        simp [Server.process, Request.names]
      next => cases answered
  | subscribe | unsubscribe =>
      cases answered
      exact ⟨rfl, rfl, by rintro ⟨⟩⟩

namespace Served

variable {run : ConnectionRun}

/-- More requests change nothing of what was answered. -/
theorem advance
    (served : Served run) (next : Connection × List Request) :
    Served (run.advance next) where
  holds := by
    rw [ConnectionRun.advance,
      List.take_append_of_le_length served.processed]
    exact served.holds
  answered := by
    intro index answer isAnswer
    have inAnswers := (List.getElem?_eq_some_iff.mp isAnswer).1
    have inSent := inAnswers.trans_le served.processed
    rcases served.answered index answer isAnswer with
      ⟨request, isRequest, answers⟩
    refine ⟨request, ?_, ?_⟩
    · rw [ConnectionRun.advance, List.getElem?_append_left inSent]
      exact isRequest
    · rw [ConnectionRun.advance, List.take_append_of_le_length inSent.le]
      exact answers
  processed := by
    have processed := served.processed
    simp only [ConnectionRun.advance, List.length_append]
    omega
  received := served.received

theorem answer
    (served : Served run) {request : Request} {order : List String}
    {answer : Answer}
    (isNext : run.sent[run.answers.length]? = some request)
    (answered : run.server.answer request order = some answer) :
    Served { run with
      server := run.server.process request
      answers := run.answers ++ [answer] } where
  holds := by
    rw [List.length_append, List.length_singleton, List.take_add_one, isNext]
    change request.apply run.server.holds = _
    rw [served.holds, request.apply_symmDiff]
    exact congrArg (symmDiff · _) (requested_concat _ _).symm
  answered := by
    intro index other isAnswer
    rw [List.getElem?_append] at isAnswer
    split at isAnswer
    next => exact served.answered index other isAnswer
    next notOld =>
      rw [List.getElem?_singleton] at isAnswer
      split at isAnswer
      next isLast =>
        have same : index = run.answers.length := by omega
        subst same
        rw [← Option.some.inj isAnswer]
        exact ⟨request, isNext, Server.answer_answers served.holds answered⟩
      next => cases isAnswer
  processed := by
    rw [List.length_append, List.length_singleton]
    exact (List.getElem?_eq_some_iff.mp isNext).1
  received := by
    rw [List.length_append]
    exact Nat.le_add_right_of_le served.received

theorem change
    (served : Served run) (streams : Finset String) :
    Served { run with server := run.server.change streams } where
  holds := by
    change symmDiff run.server.holds streams = symmDiff _ (symmDiff _ _)
    rw [served.holds, symmDiff_assoc]
  answered := served.answered
  processed := served.processed
  received := served.received

theorem took
    (served : Served run) (connection : Connection)
    (more : run.received < run.answers.length) :
    Served (run.took connection) where
  holds := (served.advance (connection, [])).holds
  answered := (served.advance (connection, [])).answered
  processed := (served.advance (connection, [])).processed
  received := more

end Served

/-! ## Runs keep the connection and the server together -/

/-- The requests, the replies and what the connection remembers fit. -/
structure Synchronised (run : ConnectionRun) : Prop where
  numbered : Numbered run
  served : Served run
  tracked : run.connection.error = none → ∃ blocks, Tracks run blocks

/-- The next reply, as the connection takes it. -/
structure Delivery (run : ConnectionRun) (request : Request)
    (answer : Answer) : Prop where
  isNext : run.sent[run.received]? = some request
  answers :
    Answers (requested (run.sent.take run.received)) request answer

namespace Tracks

variable {run : ConnectionRun} {blocks : List Block} {request : Request}
  {answer : Answer}

/-- An audit is compared with the streams which the requests ask for. -/
theorem receive_audit
    (tracks : Tracks run blocks) (numbered : Numbered run)
    (delivery : Delivery run request answer)
    (isAudit : request.method = .listSubscriptions) :
    requested (run.sent.take run.received) =
        run.connection.activeSubscriptions ∧
      run.connection.receive answer.reply =
        run.connection.receiveAudit answer.reply ∧
      answer.reply.id ∈ run.connection.pendingAudits ∧
      ∃ blocks, Tracks (run.took (run.connection.receive answer.reply))
        blocks := by
  rcases tracks.exists_headBlock numbered delivery.isNext with
    ⟨block, left, rest, rfl, head⟩
  have sound := tracks.sound block List.mem_cons_self
  have single : block.pending = none := by
    by_contra isUpdate
    apply sound.changing isUpdate request _ isAudit
    rw [head.requests]
    exact List.mem_cons_self
  have isId := delivery.answers.id
  have noUpdate := tracks.get?_of_single head single
  rw [← isId] at noUpdate
  have audits := head.audits
  rw [List.filter_cons_of_pos (by simpa using isAudit), List.map_cons,
    ← isId] at audits
  have member : answer.reply.id ∈ run.connection.pendingAudits := by
    rw [audits]
    exact List.mem_cons_self
  have received := Connection.receive_of_audit delivery.answers.accepted
    member noUpdate
  refine ⟨?_, received, member, rest, ?_⟩
  · have alone : left = [] := by
      rcases sound.single single with ⟨only, requests⟩
      rw [head.requests] at requests
      exact (List.cons.inj requests).2
    have agrees := tracks.agrees
    simp only [Agrees, head.requests, alone, List.foldl_cons, List.foldl_nil,
      Block.result, single, Request.apply, isAudit] at agrees
    exact agrees
  · rw [received, Connection.receiveAudit, if_pos member]
    refine tracks.took_single head single rfl ?_ rfl
    change run.connection.pendingAudits.erase answer.reply.id = _
    rw [audits, List.erase_cons_head]

/-- Another reply is never an audit's. -/
theorem receive_other
    (tracks : Tracks run blocks) (numbered : Numbered run)
    (alive : run.connection.error = none)
    (delivery : Delivery run request answer)
    (noAudit : request.method ≠ .listSubscriptions) :
    (run.connection.receive answer.reply).error = none ∧
      ∃ blocks, Tracks (run.took (run.connection.receive answer.reply))
        blocks := by
  rcases tracks.exists_headBlock numbered delivery.isNext with
    ⟨block, left, rest, rfl, head⟩
  have isId := delivery.answers.id
  have audits := head.audits
  rw [List.filter_cons_of_neg (by simpa using noAudit)] at audits
  have unawaited : answer.reply.id ∉ run.connection.pendingAudits := by
    rw [audits, isId]
    intro member
    rcases List.mem_map.mp member with ⟨later, isLater, same⟩
    apply (List.nodup_cons.mp head.distinct).1
    rw [← same]
    exact List.mem_map_of_mem (List.mem_of_mem_filter isLater)
  cases isUpdate : block.pending with
  | none =>
      have noUpdate := tracks.get?_of_single head isUpdate
      rw [← isId] at noUpdate
      rw [Connection.receive_of_unknown delivery.answers.accepted alive
        unawaited noUpdate]
      exact ⟨alive, rest, tracks.took_single head isUpdate rfl audits rfl⟩
  | some pending =>
      rw [Connection.receive_of_update delivery.answers.accepted alive
        unawaited]
      refine ⟨?_, tracks.took_update head isUpdate isId⟩
      unfold Connection.receiveUpdate
      split
      next => exact alive
      next =>
        simp only
        split
        next => exact alive
        next => exact alive

end Tracks

theorem Numbered.takeUpdate
    {run : ConnectionRun} (numbered : Numbered run)
    (update : SubscriptionUpdate) (rest : List SubscriptionUpdate) :
    Numbered (run.advance (run.connection.takeUpdate update rest)) := by
  unfold Connection.takeUpdate
  split
  next => exact numbered.append rfl rfl
  next => exact numbered.append (map_id_numberRequests _ _) rfl

theorem Numbered.auditDue
    {run : ConnectionRun} (numbered : Numbered run) :
    Numbered (run.advance run.connection.auditDue) := by
  unfold Connection.auditDue
  split
  next => exact numbered.append rfl rfl
  next =>
    split
    next => exact numbered.append rfl rfl
    next => exact numbered.append rfl rfl

theorem subscriptionId_receive
    (connection : Connection) (reply : ControlReply) :
    (connection.receive reply).subscriptionId = connection.subscriptionId := by
  have audited : (connection.receiveAudit reply).subscriptionId =
      connection.subscriptionId := by
    unfold Connection.receiveAudit
    split <;> rfl
  unfold Connection.receive
  split
  next => rfl
  next =>
    simp only
    split
    next => exact audited
    next =>
      refine Eq.trans ?_ audited
      unfold Connection.receiveUpdate
      split
      next => rfl
      next =>
        simp only
        split <;> rfl

namespace Synchronised

variable {run : ConnectionRun}

theorem delivery
    (synchronised : Synchronised run) {answer : Answer}
    (isAnswer : run.answers[run.received]? = some answer) :
    ∃ request, Delivery run request answer := by
  rcases synchronised.served.answered _ _ isAnswer with
    ⟨request, isNext, answers⟩
  exact ⟨request, isNext, answers⟩

theorem took
    (synchronised : Synchronised run) (alive : run.connection.error = none)
    {answer : Answer} (isAnswer : run.answers[run.received]? = some answer) :
    Synchronised (run.took (run.connection.receive answer.reply)) where
  numbered := by
    have numbered : Numbered
        (run.advance (run.connection.receive answer.reply, [])) :=
      synchronised.numbered.append rfl (subscriptionId_receive _ _)
    exact ⟨numbered.ids⟩
  served := synchronised.served.took _
    (List.getElem?_eq_some_iff.mp isAnswer).1
  tracked := by
    intro _
    rcases synchronised.tracked alive with ⟨blocks, tracks⟩
    rcases synchronised.delivery isAnswer with ⟨request, delivery⟩
    by_cases isAudit : request.method = .listSubscriptions
    · exact (tracks.receive_audit synchronised.numbered delivery
        isAudit).2.2.2
    · exact (tracks.receive_other synchronised.numbered alive delivery
        isAudit).2

/-- The connection changed nothing which concerns its requests. -/
theorem congr
    (synchronised : Synchronised run) (alive : run.connection.error = none)
    {connection : Connection}
    (current :
      connection.subscriptionId = run.connection.subscriptionId)
    (updates : connection.pendingUpdates = run.connection.pendingUpdates)
    (audits : connection.pendingAudits = run.connection.pendingAudits)
    (active : connection.activeSubscriptions =
      run.connection.activeSubscriptions) :
    Synchronised (run.advance (connection, [])) where
  numbered := synchronised.numbered.append rfl current
  served := synchronised.served.advance _
  tracked := by
    intro _
    rcases synchronised.tracked alive with ⟨blocks, tracks⟩
    exact ⟨blocks, tracks.congr updates audits active⟩

theorem step
    (synchronised : Synchronised run) {label : ConnectionLabel}
    {next : ConnectionRun} (stepped : connectionStep run label = some next) :
    Synchronised next := by
  have served := synchronised.served
  have received := served.received.trans served.processed
  unfold connectionStep at stepped
  split at stepped
  next => cases stepped
  next alive =>
    rw [not_not] at alive
    rcases synchronised.tracked alive with ⟨blocks, tracks⟩
    cases label with
    | submit update =>
        simp only at stepped
        split at stepped
        next => cases stepped
        next =>
          cases stepped
          exact synchronised.congr alive rfl rfl rfl rfl
    | giveUp ticket =>
        cases stepped
        exact synchronised.congr alive rfl rfl rfl rfl
    | takeUpdate =>
        simp only at stepped
        split at stepped
        next => cases stepped
        next update rest _ =>
          cases stepped
          exact ⟨synchronised.numbered.takeUpdate update rest,
            served.advance _, fun _ => tracks.takeUpdate
              synchronised.numbered received update rest⟩
    | auditDue =>
        cases stepped
        exact ⟨synchronised.numbered.auditDue, served.advance _,
          fun _ => tracks.auditDue received⟩
    | auditTimeout =>
        simp only at stepped
        split at stepped
        next => cases stepped
        next =>
          cases stepped
          exact synchronised.congr alive rfl rfl rfl rfl
    | receive =>
        simp only at stepped
        split at stepped
        next => cases stepped
        next answer isAnswer =>
          cases stepped
          exact synchronised.took alive isAnswer
    | snapshotsFetched ticket =>
        simp only at stepped
        split at stepped
        next =>
          cases stepped
          exact synchronised.congr alive rfl rfl rfl rfl
        next => cases stepped
    | answer order =>
        simp only at stepped
        split at stepped
        next => cases stepped
        next request isNext =>
          rcases Option.map_eq_some_iff.mp stepped with
            ⟨answer, answered, rfl⟩
          exact ⟨⟨synchronised.numbered.ids⟩,
            served.answer isNext answered,
            fun _ => ⟨blocks, tracks.outstanding, tracks.sound,
              tracks.regular, tracks.agrees, tracks.updates,
              tracks.audits⟩⟩
    | change streams =>
        cases stepped
        exact ⟨⟨synchronised.numbered.ids⟩, served.change streams,
          fun _ => ⟨blocks, tracks.outstanding, tracks.sound,
            tracks.regular, tracks.agrees, tracks.updates, tracks.audits⟩⟩

end Synchronised

theorem synchronised_openConnection
    (subscriptionId : Nat) (subscriptions : List String) :
    Synchronised (openConnection subscriptionId subscriptions) where
  numbered := ⟨subscriptionId, rfl, rfl⟩
  served := by
    constructor
    · simp [openConnection, requested]
    · intro index answer isAnswer
      simp [openConnection] at isAnswer
    · exact Nat.zero_le _
    · exact le_rfl
  tracked := by
    intro _
    let block : Block := {
      requests := (openConnection subscriptionId subscriptions).sent
      pending := none }
    refine ⟨[block], (List.append_nil _).symm, ?_, ?_, ?_, ?_, rfl⟩
    · intro other member
      rw [List.mem_singleton.mp member]
      constructor
      · exact List.cons_ne_nil _ _
      · exact fun _ => ⟨_, rfl⟩
      · rintro pending ⟨⟩
      · exact fun isSome => absurd rfl isSome
    · rintro other ⟨⟩
    · exact Finset.empty_union _
    · intro id pending
      simp [openConnection, block]

/-! ## What audits find -/

/-- The connection gave up as an audit differs. -/
def Mismatched (run : ConnectionRun) : Prop :=
  ∃ missing unexpected,
    run.connection.error = some (.mismatch missing unexpected)

/-- The next reply is one to an audit. -/
structure NextAudit (run : ConnectionRun) (answer : Answer) : Prop where
  isAudit : ∃ request, run.sent[run.received]? = some request ∧
    request.method = .listSubscriptions
  isAnswer : run.answers[run.received]? = some answer

/--
The reply to an audit differs from the active subscriptions exactly if some
stream had drifted when the server answered, and then the connection gives up.
-/
def ComparesDrift (run : ConnectionRun) : Prop :=
  ∀ answer next, NextAudit run answer →
    connectionStep run .receive = some next →
      ((answer.reply.result.getD []).toFinset ≠
          run.connection.activeSubscriptions ↔ answer.drifted ≠ ∅) ∧
        (Mismatched next ↔ answer.drifted ≠ ∅)

/-- A step in which neither the server nor a request names the stream. -/
def LeavesStream (stream : String) (run : ConnectionRun) :
    ConnectionLabel → Prop
  | .answer _ => ∀ request ∈ run.sent[run.answers.length]?,
      stream ∉ request.names
  | .change streams => stream ∉ streams
  | _ => True

/--
A stream which the connection has subscribed and the server drops is missed by
each audit which is answered before a request names it again.
-/
def DetectsDrop (run : ConnectionRun) : Prop :=
  ∀ stream dropped between middle order answered later waiting next,
    stream ∈ run.server.holds → stream ∉ run.server.drifted →
    connectionStep run (.change {stream}) = some dropped →
    StepsMeet connectionStep (LeavesStream stream) dropped between →
    runFrom connectionStep dropped between = some middle →
    (∃ request, middle.sent[middle.answers.length]? = some request ∧
      request.method = .listSubscriptions) →
    connectionStep middle (.answer order) = some answered →
    runFrom connectionStep answered later = some waiting →
    waiting.received = middle.answers.length →
    connectionStep waiting .receive = some next →
      ∃ missing unexpected, stream ∈ missing ∧
        next.connection.error = some (.mismatch missing unexpected)

/-- What the step which takes a reply is. -/
theorem receive_step
    {run next : ConnectionRun} {answer : Answer}
    (isAnswer : run.answers[run.received]? = some answer)
    (stepped : connectionStep run .receive = some next) :
    run.connection.error = none ∧
      next = run.took (run.connection.receive answer.reply) := by
  unfold connectionStep at stepped
  split at stepped
  next => cases stepped
  next alive =>
    rw [isAnswer] at stepped
    cases stepped
    exact ⟨not_not.mp alive, rfl⟩

/-- What becomes of a reply to an audit. -/
theorem Synchronised.audit
    {run next : ConnectionRun} {answer : Answer}
    (synchronised : Synchronised run) (isNext : NextAudit run answer)
    (stepped : connectionStep run .receive = some next) :
    (answer.reply.result.getD []).toFinset =
        symmDiff run.connection.activeSubscriptions answer.drifted ∧
      next.connection.error =
        if (answer.reply.result.getD []).toFinset ≠
            run.connection.activeSubscriptions then
          some (.mismatch
            ((run.connection.activeSubscriptions \
              (answer.reply.result.getD []).toFinset).sort (· ≤ ·))
            (((answer.reply.result.getD []).toFinset \
              run.connection.activeSubscriptions).sort (· ≤ ·)))
        else none := by
  rcases receive_step isNext.isAnswer stepped with ⟨alive, rfl⟩
  rcases synchronised.tracked alive with ⟨blocks, tracks⟩
  rcases synchronised.delivery isNext.isAnswer with ⟨request, delivery⟩
  rcases isNext.isAudit with ⟨other, isOther, isAudit⟩
  cases Option.some.inj (delivery.isNext.symm.trans isOther)
  rcases tracks.receive_audit synchronised.numbered delivery isAudit with
    ⟨settled, received, member, _⟩
  rcases delivery.answers.listed isAudit with ⟨order, isResult, listed⟩
  constructor
  · rw [isResult, ← settled]
    exact listed
  · change (run.connection.receive answer.reply).error = _
    rw [received, Connection.receiveAudit, if_pos member]
    simp only [alive]

theorem Synchronised.comparesDrift
    {run : ConnectionRun} (synchronised : Synchronised run) :
    ComparesDrift run := by
  intro answer next isNext stepped
  rcases synchronised.audit isNext stepped with ⟨listed, error⟩
  have differs : (answer.reply.result.getD []).toFinset ≠
      run.connection.activeSubscriptions ↔ answer.drifted ≠ ∅ := by
    rw [listed, not_iff_not]
    exact symmDiff_eq_left
  refine ⟨differs, ?_⟩
  rw [← differs, Mismatched, error]
  split
  next isDifferent => simp [isDifferent]
  next same => simpa using same

/-- Nothing drifted, and no audit differed. -/
structure WellBehaved (run : ConnectionRun) : Prop where
  synchronised : Synchronised run
  server : run.server.drifted = ∅
  answers : ∀ answer ∈ run.answers, answer.drifted = ∅
  passes : ¬ Mismatched run

theorem error_takeUpdate
    (connection : Connection) (update : SubscriptionUpdate)
    (rest : List SubscriptionUpdate) :
    (connection.takeUpdate update rest).1.error = connection.error := by
  unfold Connection.takeUpdate
  split <;> rfl

theorem error_auditDue
    {connection : Connection} (alive : connection.error = none) :
    connection.auditDue.1.error = none ∨
      connection.auditDue.1.error = some .unanswered := by
  unfold Connection.auditDue
  split
  next => exact .inr rfl
  next => split <;> exact .inl alive

/-- A step is the server's, takes a reply, or sends requests. -/
theorem connectionStep_cases
    {run next : ConnectionRun} {label : ConnectionLabel}
    (stepped : connectionStep run label = some next) :
    (∃ order request answer, label = .answer order ∧
        run.sent[run.answers.length]? = some request ∧
        run.server.answer request order = some answer ∧
        next = { run with
          server := run.server.process request
          answers := run.answers ++ [answer] }) ∨
      (∃ streams, label = .change streams ∧
        next = { run with server := run.server.change streams }) ∨
      (∃ answer, label = .receive ∧
        run.answers[run.received]? = some answer ∧
        next = run.took (run.connection.receive answer.reply)) ∨
      (∃ connection requests, next = run.advance (connection, requests) ∧
        (connection.error = none ∨
          connection.error = some .unanswered)) := by
  unfold connectionStep at stepped
  split at stepped
  next => cases stepped
  next alive =>
    rw [not_not] at alive
    cases label with
    | submit update =>
        simp only at stepped
        split at stepped
        next => cases stepped
        next =>
          cases stepped
          exact .inr (.inr (.inr ⟨_, _, rfl, .inl alive⟩))
    | giveUp ticket =>
        cases stepped
        exact .inr (.inr (.inr ⟨_, _, rfl, .inl alive⟩))
    | takeUpdate =>
        simp only at stepped
        split at stepped
        next => cases stepped
        next update rest _ =>
          cases stepped
          exact .inr (.inr (.inr
            ⟨(run.connection.takeUpdate update rest).1, _, rfl,
              .inl ((error_takeUpdate _ _ _).trans alive)⟩))
    | auditDue =>
        cases stepped
        exact .inr (.inr (.inr ⟨run.connection.auditDue.1, _, rfl,
          error_auditDue alive⟩))
    | auditTimeout =>
        simp only at stepped
        split at stepped
        next => cases stepped
        next =>
          cases stepped
          exact .inr (.inr (.inr ⟨_, _, rfl, .inr rfl⟩))
    | receive =>
        simp only at stepped
        split at stepped
        next => cases stepped
        next answer isAnswer =>
          cases stepped
          exact .inr (.inr (.inl ⟨answer, rfl, isAnswer, rfl⟩))
    | snapshotsFetched ticket =>
        simp only at stepped
        split at stepped
        next =>
          cases stepped
          exact .inr (.inr (.inr ⟨_, _, rfl, .inl alive⟩))
        next => cases stepped
    | answer order =>
        simp only at stepped
        split at stepped
        next => cases stepped
        next request isNext =>
          rcases Option.map_eq_some_iff.mp stepped with
            ⟨answer, answered, rfl⟩
          exact .inl ⟨order, request, answer, rfl, isNext, answered, rfl⟩
    | change streams =>
        cases stepped
        exact .inr (.inl ⟨streams, rfl, rfl⟩)

theorem Server.answer_drifted
    {server : Server} {request : Request} {order : List String}
    {answer : Answer} (answered : server.answer request order = some answer) :
    answer.drifted = server.drifted \ request.names := by
  rcases request with ⟨method, params, id⟩
  cases method with
  | listSubscriptions =>
      simp only [Server.answer] at answered
      split at answered
      next =>
        cases answered
        rfl
      next => cases answered
  | subscribe | unsubscribe =>
      cases answered
      rfl

theorem WellBehaved.step
    {run next : ConnectionRun} {label : ConnectionLabel}
    (wellBehaved : WellBehaved run)
    (unchanged : ∀ streams, label ≠ .change streams)
    (stepped : connectionStep run label = some next) : WellBehaved next := by
  have synchronised := wellBehaved.synchronised
  have still := synchronised.step stepped
  rcases connectionStep_cases stepped with
    ⟨order, request, answer, rfl, _, answered, rfl⟩ | ⟨streams, same, _⟩ |
      ⟨answer, rfl, isAnswer, rfl⟩ | ⟨connection, requests, rfl, error⟩
  · refine ⟨still, ?_, ?_, wellBehaved.passes⟩
    · simp [Server.process, wellBehaved.server]
    · intro other member
      rcases List.mem_append.mp member with old | new
      · exact wellBehaved.answers other old
      · rw [List.mem_singleton.mp new, Server.answer_drifted answered,
          wellBehaved.server, Finset.empty_sdiff]
  · exact absurd same (unchanged streams)
  · refine ⟨still, wellBehaved.server, wellBehaved.answers, ?_⟩
    have alive := (receive_step isAnswer stepped).1
    rcases synchronised.delivery isAnswer with ⟨request, delivery⟩
    by_cases isAudit : request.method = .listSubscriptions
    · have isNext : NextAudit run answer :=
        ⟨⟨request, delivery.isNext, isAudit⟩, isAnswer⟩
      rw [(synchronised.comparesDrift _ _ isNext stepped).2, not_not]
      exact wellBehaved.answers answer (List.mem_of_getElem? isAnswer)
    · rcases synchronised.tracked alive with ⟨blocks, tracks⟩
      have passes := (tracks.receive_other synchronised.numbered alive
        delivery isAudit).1
      rintro ⟨missing, unexpected, mismatch⟩
      exact absurd (passes.symm.trans mismatch) (by simp)
  · refine ⟨still, wellBehaved.server, wellBehaved.answers, ?_⟩
    rintro ⟨missing, unexpected, mismatch⟩
    rcases error with none | unanswered
    · exact absurd (none.symm.trans mismatch) (by simp)
    · exact absurd (unanswered.symm.trans mismatch) (by simp)

/-- The server lacks a stream which the connection has subscribed. -/
structure Lacks (stream : String) (run : ConnectionRun) : Prop where
  absent : stream ∉ run.server.holds
  drifted : stream ∈ run.server.drifted

theorem Lacks.step
    {stream : String} {run next : ConnectionRun} {label : ConnectionLabel}
    (lacks : Lacks stream run) (leaves : LeavesStream stream run label)
    (stepped : connectionStep run label = some next) :
    Lacks stream next := by
  rcases connectionStep_cases stepped with
    ⟨order, request, answer, rfl, isNext, _, rfl⟩ | ⟨streams, rfl, rfl⟩ |
      ⟨answer, rfl, _, rfl⟩ | ⟨connection, requests, rfl, _⟩
  · have unnamed := leaves request isNext
    refine ⟨?_, Finset.mem_sdiff.mpr ⟨lacks.drifted, unnamed⟩⟩
    have absent := lacks.absent
    rcases request with ⟨method, params, id⟩
    cases method <;>
      simp_all [Server.process, Request.apply, Request.names]
  · have outside : stream ∉ streams := leaves
    have absent := lacks.absent
    have drifted := lacks.drifted
    constructor
    · simp [Server.change, Finset.mem_symmDiff, absent, outside]
    · simp [Server.change, Finset.mem_symmDiff, drifted, outside]
  · exact ⟨lacks.absent, lacks.drifted⟩
  · exact ⟨lacks.absent, lacks.drifted⟩

/-- A request and its answer, at their place. -/
structure Exchanged (index : Nat) (request : Request) (answer : Answer)
    (run : ConnectionRun) : Prop where
  isRequest : run.sent[index]? = some request
  isAnswer : run.answers[index]? = some answer

theorem Exchanged.step
    {index : Nat} {request : Request} {answer : Answer}
    {run next : ConnectionRun} {label : ConnectionLabel}
    (exchanged : Exchanged index request answer run)
    (stepped : connectionStep run label = some next) :
    Exchanged index request answer next := by
  have kept {α : Type} {items more : List α} {item : α}
      (found : items[index]? = some item) :
      (items ++ more)[index]? = some item := by
    rw [List.getElem?_append_left (List.getElem?_eq_some_iff.mp found).1]
    exact found
  rcases connectionStep_cases stepped with
    ⟨_, _, _, _, _, _, rfl⟩ | ⟨_, _, rfl⟩ | ⟨_, _, _, rfl⟩ | ⟨_, _, rfl, _⟩
  · exact ⟨exchanged.isRequest, kept exchanged.isAnswer⟩
  · exact ⟨exchanged.isRequest, exchanged.isAnswer⟩
  · exact ⟨kept exchanged.isRequest, exchanged.isAnswer⟩
  · exact ⟨kept exchanged.isRequest, exchanged.isAnswer⟩

theorem Synchronised.run
    {start final : ConnectionRun} {labels : List ConnectionLabel}
    (synchronised : Synchronised start)
    (reached : runFrom connectionStep start labels = some final) :
    Synchronised final :=
  invariant_of_run (fun _ _ _ before _ stepped => before.step stepped)
    synchronised (stepsMeet_true _ _) reached

/-- The server drops a stream which it holds by a request. -/
theorem lacks_of_change
    {stream : String} {run next : ConnectionRun}
    (held : stream ∈ run.server.holds) (undrifted : stream ∉ run.server.drifted)
    (stepped : connectionStep run (.change {stream}) = some next) :
    Lacks stream next := by
  unfold connectionStep at stepped
  split at stepped
  next => cases stepped
  next =>
    cases stepped
    constructor
    · simp [Server.change, Finset.mem_symmDiff, held]
    · simp [Server.change, Finset.mem_symmDiff, undrifted]

/-- The answer to an audit while a stream is lacking. -/
theorem Lacks.answer
    {stream : String} {run next : ConnectionRun} {order : List String}
    {request : Request} (lacks : Lacks stream run)
    (isNext : run.sent[run.answers.length]? = some request)
    (isAudit : request.method = .listSubscriptions)
    (stepped : connectionStep run (.answer order) = some next) :
    ∃ answer, Exchanged run.answers.length request answer next ∧
      stream ∈ answer.drifted ∧
      stream ∉ (answer.reply.result.getD []).toFinset := by
  unfold connectionStep at stepped
  split at stepped
  next => cases stepped
  next =>
    simp only [isNext] at stepped
    rcases Option.map_eq_some_iff.mp stepped with ⟨answer, answered, rfl⟩
    refine ⟨answer, ⟨isNext, List.getElem?_concat_length⟩, ?_, ?_⟩
    · rw [Server.answer_drifted answered, Request.names, isAudit,
        Finset.sdiff_empty]
      exact lacks.drifted
    · simp only [Server.answer, isAudit] at answered
      split at answered
      next listed =>
        cases answered
        rw [Option.getD_some, listed]
        exact lacks.absent
      next => cases answered

theorem Synchronised.detectsDrop
    {run : ConnectionRun} (synchronised : Synchronised run) :
    DetectsDrop run := by
  rintro stream dropped between middle order answered later waiting next
    held undrifted drops leaves reached ⟨request, isRequest, isAudit⟩ answers
    waits isNext stepped
  have lacks : Lacks stream middle :=
    invariant_of_run (fun _ _ _ before leaves stepped =>
      before.step leaves stepped)
      (lacks_of_change held undrifted drops) leaves reached
  rcases lacks.answer isRequest isAudit answers with
    ⟨answer, exchanged, drifted, absent⟩
  have delivered : Exchanged middle.answers.length request answer waiting :=
    invariant_of_run (fun _ _ _ before _ stepped => before.step stepped)
      exchanged (stepsMeet_true _ _) waits
  rw [← isNext] at delivered
  have atWaiting : Synchronised waiting :=
    (((synchronised.step drops).run reached).step answers).run waits
  rcases atWaiting.audit
      ⟨⟨request, delivered.isRequest, isAudit⟩, delivered.isAnswer⟩ stepped
    with ⟨listed, error⟩
  have active : stream ∈ waiting.connection.activeSubscriptions := by
    by_contra inactive
    rw [listed, Finset.mem_symmDiff] at absent
    exact absent (.inr ⟨drifted, inactive⟩)
  have differs : (answer.reply.result.getD []).toFinset ≠
      waiting.connection.activeSubscriptions :=
    fun same => absent (same ▸ active)
  rw [if_pos differs] at error
  refine ⟨_, _, ?_, error⟩
  rw [Finset.mem_sort, Finset.mem_sdiff]
  exact ⟨active, absent⟩

/--
From the opening of a connection on, audits find exactly what drifted: a
well-behaved server passes all of them, and each audit which is answered
before a request names a dropped stream again misses it.
-/
theorem audits_find_drift
    (subscriptionId : Nat) (subscriptions : List String)
    {labels : List ConnectionLabel} {run : ConnectionRun}
    (reached : runFrom connectionStep
      (openConnection subscriptionId subscriptions) labels = some run) :
    ComparesDrift run ∧
      ((∀ label ∈ labels, ∀ streams, label ≠ .change streams) →
        ¬ Mismatched run) ∧
      DetectsDrop run := by
  have opened := synchronised_openConnection subscriptionId subscriptions
  have synchronised := opened.run reached
  refine ⟨synchronised.comparesDrift, ?_, synchronised.detectsDrop⟩
  intro unchanged
  have opens :
      WellBehaved (openConnection subscriptionId subscriptions) := by
    refine ⟨opened, rfl, ?_, ?_⟩
    · rintro answer ⟨⟩
    · rintro ⟨missing, unexpected, ⟨⟩⟩
  have wellBehaved : WellBehaved run :=
    invariant_of_run (fun _ _ _ before unchanged stepped =>
      before.step unchanged stepped) opens
      (stepsMeet_of_forall (fun label member _ => unchanged label member) _)
      reached
  exact wellBehaved.passes

/-! ## A dropped stream -/

/-- A connection with one stream, which the server has subscribed. -/
def subscribedStream : List ConnectionLabel := [.answer [], .receive]

/-- The server drops it before an audit. -/
def droppedStream : List ConnectionLabel :=
  subscribedStream ++ [.change {"btcusdt@bookTicker"}, .auditDue, .answer []]

theorem droppedStream_completes :
    (runFrom connectionStep (openConnection 7 ["btcusdt@bookTicker"])
      droppedStream).isSome := by
  decide +kernel

theorem audits_find_drift_dropped :
    ∃ waiting next, runFrom connectionStep
        (openConnection 7 ["btcusdt@bookTicker"]) droppedStream =
          some waiting ∧
      connectionStep waiting .receive = some next ∧ Mismatched next := by
  have reached := (Option.some_get droppedStream_completes).symm
  have compares := (audits_find_drift 7 ["btcusdt@bookTicker"] reached).1
  refine ⟨_, _, reached, rfl,
    (compares _ _ ⟨⟨_, rfl, rfl⟩, rfl⟩ rfl).2.mpr ?_⟩
  decide +kernel

/-- The liveness loop subscribes the silent stream again. -/
def refreshUpdate : SubscriptionUpdate where
  add := ["btcusdt@bookTicker"]
  remove := ["btcusdt@bookTicker"]
  snapshotRequests := []
  ticket := 0

def repairedStream : List ConnectionLabel :=
  [.submit refreshUpdate, .takeUpdate, .answer [], .answer [], .receive,
    .receive, .auditDue, .answer ["btcusdt@bookTicker"]]

/-- The first audit after the drop passes. -/
theorem repaired_drop_passes :
    ∃ dropped waiting next, runFrom connectionStep
        (openConnection 7 ["btcusdt@bookTicker"])
        (subscribedStream ++ [.change {"btcusdt@bookTicker"}]) =
          some dropped ∧
      "btcusdt@bookTicker" ∉ dropped.server.holds ∧
      "btcusdt@bookTicker" ∈ dropped.connection.activeSubscriptions ∧
      runFrom connectionStep dropped repairedStream = some waiting ∧
      (waiting.sent[waiting.received]?.map Request.method) =
        some .listSubscriptions ∧
      connectionStep waiting .receive = some next ∧
      next.connection.error = none ∧ ¬ Mismatched next := by
  refine ⟨_, _, _, rfl, ?_, ?_, rfl, rfl, rfl, ?_, ?_⟩
  · decide +kernel
  · decide +kernel
  · decide +kernel
  · rintro ⟨missing, unexpected, ⟨⟩⟩

end ShadowDataPlane.Edge.SubscriptionAudit
