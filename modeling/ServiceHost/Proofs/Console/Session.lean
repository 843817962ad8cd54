import ServiceHost.Proofs.Entry.Boot

/-! Console sessions: whatever the services answer, a session comes to its end, and its lines alone
say to which one.
-/

set_option autoImplicit false

namespace ServiceHost.Console

/-! ## What ends a session -/

def Command.exit? : Command → Option Exit
  | .quit => some .quit
  | .shutdown => some .shutdown
  | _ => none

/-- How a line ends the session, if it does. -/
def exitAt (line : Blob) : Option (Except FileError Exit) :=
  match Text.ofBytes? line with
  | none => some (.error .notText)
  | some text =>
    match Command.read text with
    | .ok (some command) => command.exit?.map .ok
    | _ => none

/-- How a session over these lines ends: by the first that ends it. -/
def exitOf (lines : List Blob) : Except FileError Exit :=
  (lines.findSome? exitAt).getD (.ok .endOfInput)

theorem exitOf_cons (line : Blob) (rest : List Blob) :
    exitOf (line :: rest) = (exitAt line).getD (exitOf rest) := by
  unfold exitOf
  rw [List.findSome?_cons]
  cases exitAt line <;> rfl

theorem exitAt_eq_error_iff {line : Blob} {cause : FileError} :
    exitAt line = some (.error cause) ↔ Text.ofBytes? line = none ∧ cause = .notText := by
  unfold exitAt
  cases Text.ofBytes? line with
  | none => simp [eq_comm]
  | some text =>
    simp only [reduceCtorEq, false_and, iff_false]
    split
    · rename_i command _
      cases command.exit? <;> simp
    · simp

/-- A session over this input breaks off: it comes to a line that is no text, and no line before it
ends the session. -/
def BreaksOff (input : Blob) : Prop :=
  ∃ before line after, linesOf [] input = before ++ line :: after ∧ Text.ofBytes? line = none ∧
    ∀ earlier ∈ before, exitAt earlier = none

theorem exitOf_eq_error_iff {input : Blob} {cause : FileError} :
    exitOf (linesOf [] input) = .error cause ↔ cause = .notText ∧ BreaksOff input := by
  unfold exitOf BreaksOff
  cases first : (linesOf [] input).findSome? exitAt with
  | none =>
    simp only [Option.getD_none, reduceCtorEq, false_iff]
    rintro ⟨-, before, line, after, same, unreadable, -⟩
    have passed := List.findSome?_eq_none_iff.mp first line (by simp [same])
    cases passed.symm.trans (exitAt_eq_error_iff.mpr ⟨unreadable, rfl⟩)
  | some exit =>
    obtain ⟨before, line, after, same, ends, passed⟩ := List.findSome?_eq_some_iff.mp first
    rw [Option.getD_some]
    constructor
    · rintro rfl
      obtain ⟨unreadable, rfl⟩ := exitAt_eq_error_iff.mp ends
      exact ⟨rfl, before, line, after, same, unreadable, passed⟩
    · rintro ⟨rfl, breaks⟩
      obtain ⟨_, _, _, other, unreadable, earlier⟩ := breaks
      have again := List.findSome?_eq_some_iff.mpr
        ⟨_, _, _, other, exitAt_eq_error_iff.mpr ⟨unreadable, rfl⟩, earlier⟩
      exact Option.some.inj (first.symm.trans again)

/-! ## What a session ensures -/

variable {host : Host}

theorem keeps_failed (id : String) (server : ServerId) : (failed id server).Keeps := by
  refine .bind (.read _) fun cause => ?_
  cases cause <;> exact .pure _

theorem keeps_stateReply (id : String) : (stateReply id).Keeps := by
  refine .bind (.read _) fun found => ?_
  cases found with
  | none => exact .pure _
  | some server =>
    refine .bind (Server.keeps_state server) fun told => ?_
    cases told with
    | none => exact keeps_failed id server
    | some state => exact .pure _

theorem keeps_controlReply (id : String) (asked : Control) (done : String) :
    (controlReply id asked done).Keeps := by
  refine .bind (.read _) fun found => ?_
  cases found with
  | none => exact .pure _
  | some server =>
    refine .bind (Server.keeps_control server asked) fun succeeds => ?_
    cases succeeds with
    | false => exact keeps_failed id server
    | true => exact .pure _

theorem keeps_addReply (text : String) : (addReply text).Keeps := by
  unfold addReply
  split
  · exact .pure _
  · rename_i directive _
    refine .bind (Bootstrap.keeps_apply directive) fun outcome => ?_
    cases outcome with
    | ok server => exact .bind (.read _) fun _ => .pure _
    | error cause => exact .pure _

/-- A turn ends the session as its line says, whatever its command comes to. -/
def Ended (exit : Option (Except FileError Exit)) (turn : Turn) (last : Host) : Prop :=
  turn.ended = exit ∧ last.Founded

theorem ensures_said {reply : Flow String} (keeps : reply.Keeps) (founded : host.Founded) :
    (do return .said (← reply) : Flow Turn).Ensures (Ended none) host :=
  .bind ((keeps host founded).mono fun _ _ founded => .pure ⟨rfl, founded⟩)

theorem ensures_told {asked : Flow Bool} (keeps : asked.Keeps) (done missing : String)
    (founded : host.Founded) :
    (do if ← asked then return .said done else return .said missing : Flow Turn).Ensures
      (Ended none) host := by
  refine .bind ((keeps host founded).mono fun there last founded => ?_)
  cases there <;> exact .pure ⟨rfl, founded⟩

theorem ensures_turnOf (founded : host.Founded) (command : Command) :
    (turnOf command).Ensures (Ended (command.exit?.map .ok)) host := by
  cases command with
  | quit => exact .pure ⟨rfl, founded⟩
  | shutdown =>
    exact .bind ((Registry.ensures_shutdown founded).mono fun _ _ ⟨founded, _⟩ =>
      .pure ⟨rfl, founded⟩)
  | help => exact .pure ⟨rfl, founded⟩
  | list => exact ensures_said (.read _) founded
  | state id => exact ensures_said (keeps_stateReply id) founded
  | add text => exact ensures_said (keeps_addReply text) founded
  | pause id => exact ensures_said (keeps_controlReply id .pause "paused") founded
  | resume id => exact ensures_said (keeps_controlReply id .resume "resumed") founded
  | remove id => exact ensures_told (Registry.keeps_remove id) _ _ founded
  | kill id => exact ensures_told (Registry.keeps_kill id) _ _ founded

theorem ensures_turn (founded : host.Founded) (line : Blob) :
    (turn line).Ensures (Ended (exitAt line)) host := by
  unfold turn exitAt
  cases Text.ofBytes? line with
  | none => exact Flow.Ensures.pure ⟨rfl, founded⟩
  | some text =>
    dsimp only
    cases Command.read text with
    | error problem => exact Flow.Ensures.pure ⟨rfl, founded⟩
    | ok command =>
      cases command with
      | none => exact Flow.Ensures.pure ⟨rfl, founded⟩
      | some command => exact ensures_turnOf founded command

theorem ensures_serve (founded : host.Founded) (output : String) (lines : List Blob) :
    (serve output lines).Ensures (fun ending last => ending.1 = exitOf lines ∧ last.Founded)
      host := by
  induction lines generalizing host output with
  | nil => exact .pure ⟨rfl, founded⟩
  | cons line rest ih =>
    refine .bind ((ensures_turn founded line).mono fun turn now ⟨ended, founded⟩ => ?_)
    rw [exitOf_cons, ← ended]
    cases turn.ended with
    | some exit => exact .pure ⟨rfl, founded⟩
    | none => exact ih founded _

/-- A session comes to the end that its lines say. -/
theorem ensures_run (founded : host.Founded) (input : Blob) :
    (run input).Ensures (fun ending last => ending.1 = exitOf (linesOf [] input) ∧ last.Founded)
      host :=
  ensures_serve founded "" (linesOf [] input)

end ServiceHost.Console
