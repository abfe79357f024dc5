import FragmentLint.Server.Session

/-!
Contract: what a session does over several calls.

Main statement: a call is listened to as an introduction while the session waits for one, or as a
notification while it is running, and any other call leaves what the server knows as it is and sends
nothing (`step_cases`).
-/

namespace FragmentLint.Server

namespace Session

/-- Whether what comes of a call leaves alone what the server knows. -/
structure Idle (session : Session) (outcome : Outcome) : Prop where
  state : outcome.session.state = session.state
  sent : outcome.sent = []
  phase : outcome.session.phase = .waiting → session.phase = .waiting

theorem idle_refuse (session : Session) (call : Call) (response : Response) :
    session.Idle (session.refuse call response) := ⟨rfl, rfl, id⟩

theorem idle_refusePhase (session : Session) (call : Call) :
    session.Idle (session.refusePhase call) := session.idle_refuse call _

theorem idle_shutdown (session : Session) (call : Call) : session.Idle (session.shutdown call) := by
  have closing : ∀ response, session.Idle
      (refuse { session with phase := .closing } call response) := by
    intro response
    refine ⟨rfl, rfl, ?_⟩
    intro waiting
    cases waiting
  unfold shutdown
  split
  · exact session.idle_refusePhase call
  · split
    · exact closing _
    · exact closing _
    · exact closing _

end Session

section Library

variable [UriLibrary]

/-- What a call tells the server, if it is a notification that the server takes note of. -/
def Call.notification? (call : Call) : Option Notification :=
  match Method.ofName? call.method with
  | some (.notification decode) =>
    if call.isRequest then none else (Session.decoded decode call).toOption
  | _ => none

namespace Session

theorem introduce_cases (session : Session) (call : Call) :
    session.Idle (session.introduce call)
      ∨ session.phase = .waiting ∧ ∃ introduced,
        (session.introduce call).session = ⟨.running, session.state.introduce introduced⟩
          ∧ (session.introduce call).sent = [] := by
  unfold introduce
  split
  · exact Or.inl (session.idle_refuse call _)
  next waiting =>
    split
    · exact Or.inl (session.idle_refuse call _)
    · split
      · exact Or.inl (session.idle_refuse call _)
      next introduced _ => exact Or.inr ⟨by simpa using waiting, introduced, rfl, rfl⟩

variable [SyntaxParser]

theorem idle_codeAction (session : Session) (call : Call) :
    session.Idle (session.codeAction call) := by
  unfold codeAction
  split
  · exact session.idle_refuse call _
  · split
    · exact session.idle_refuse call _
    · exact session.idle_refuse call _
    · exact session.idle_refuse call _

/-- What a session does upon a call. -/
theorem step_cases (disk : Disk) (session : Session) (call : Call) :
    session.Idle (session.step disk call)
      ∨ (session.phase = .waiting ∧ ∃ introduced,
        (session.step disk call).session = ⟨.running, session.state.introduce introduced⟩
          ∧ (session.step disk call).sent = [])
      ∨ session.phase = .running ∧ ∃ notification, call.notification? = some notification
        ∧ (session.step disk call).session
          = ⟨.running, (session.state.notify disk notification).1⟩
        ∧ (session.step disk call).sent = (session.state.notify disk notification).2 := by
  unfold step
  split
  · exact Or.inl ⟨rfl, rfl, id⟩
  · split
    · exact Or.inl (session.idle_refuse call _)
    · refine Or.inl ⟨rfl, rfl, ?_⟩
      intro waiting
      cases waiting
    · exact Or.inl ⟨rfl, rfl, id⟩
    · rcases session.introduce_cases call with idle | introduced
      · exact Or.inl idle
      · exact Or.inr (Or.inl introduced)
    · exact Or.inl (session.idle_shutdown call)
    · split
      · exact Or.inl (session.idle_codeAction call)
      · exact Or.inl (session.idle_refusePhase call)
    · split
      · exact Or.inl (session.idle_refuse call _)
      · exact Or.inl (session.idle_refusePhase call)
    next decode method =>
      split
      · exact Or.inl (session.idle_refusePhase call)
      next running =>
        split
        · exact Or.inl ⟨rfl, rfl, id⟩
        next notRequest =>
          unfold notified
          split
          · exact Or.inl ⟨rfl, rfl, id⟩
          next notification read =>
            have isRunning : session.phase = .running := by simpa using running
            refine Or.inr (Or.inr ⟨isRunning, notification, ?_, ?_, rfl⟩)
            · unfold Call.notification?
              rw [method]
              simp only
              rw [if_neg notRequest, read]
              rfl
            · rw [← isRunning]
    · split
      · exact Or.inl ⟨rfl, rfl, id⟩
      · exact Or.inl (session.idle_refusePhase call)

/-- In a running session a notification is listened to. -/
theorem step_eq_of_notification? {session : Session} {disk : Disk} {call : Call}
    {notification : Notification} (running : session.phase = .running)
    (read : call.notification? = some notification) :
    session.step disk call = ⟨⟨.running, (session.state.notify disk notification).1⟩, .silence,
      (session.state.notify disk notification).2⟩ := by
  unfold Call.notification? at read
  split at read
  next decode method =>
    split at read
    · cases read
    next notRequest =>
      cases decoded : Session.decoded decode call with
      | error reason =>
        rw [decoded] at read
        cases read
      | ok found =>
        rw [decoded] at read
        obtain rfl : found = notification := Option.some.inj read
        simp [step, method, running, notRequest, notified, decoded]
  next => cases read

/-- A notification is ignored by a session that is not running. -/
theorem step_eq_of_not_running {session : Session} {call : Call} {notification : Notification}
    (disk : Disk) (idle : session.phase ≠ .running)
    (read : call.notification? = some notification) :
    (session.step disk call).session = session ∧ (session.step disk call).sent = [] := by
  unfold Call.notification? at read
  split at read
  next decode method =>
    unfold step
    split
    · exact ⟨rfl, rfl⟩
    · simp only [method]
      rw [if_pos (by simpa using idle)]
      exact ⟨rfl, rfl⟩
  next => cases read

/-- A session after several calls, each with what was on the disk at the time, and all that was
sent. -/
def run (session : Session) : List (Disk × Call) → Session × List Message
  | [] => (session, [])
  | (disk, call) :: rest =>
    let outcome := session.step disk call
    let (final, sent) := outcome.session.run rest
    (final, outcome.sent ++ sent)

theorem run_append (session : Session) (first second : List (Disk × Call)) :
    session.run (first ++ second)
      = (((session.run first).1.run second).1,
        (session.run first).2 ++ ((session.run first).1.run second).2) := by
  induction first generalizing session with
  | nil => rfl
  | cons head rest inductionHypothesis =>
    simp only [List.cons_append, run, inductionHypothesis, List.append_assoc]

end Session

end Library

end FragmentLint.Server
