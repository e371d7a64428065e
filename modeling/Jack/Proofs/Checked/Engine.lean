import Jack.Proofs.Checked.Goals
import Jack.Proofs.Nesting

namespace Jack

namespace Generator

/-- Carries an action out. A level is left only where one is open. -/
def performChecked (limit : UInt64) (generator : Generator) : Action → Checked Outcome
  | .nest line =>
    if limit.toNat ≤ generator.depth then .ok (refuse (.nestingTooDeep line limit.toNat))
    else do
      let depth ← Checked.size (generator.depth + 1)
      .ok ([], .ok { generator with depth })
  | .unnest => do
    let depth ← Checked.pred generator.depth
    .ok ([], .ok { generator with depth })
  | .beginSubroutine kind name => do
    let _ ← Checked.size (generator.subroutines + 1)
    .ok (generator.beginSubroutine kind name)
  | action => .ok (generator.perform limit.toNat action)

def performAllChecked (limit : UInt64) (generator : Generator) : List Action → Checked Outcome
  | [] => .ok ([], .ok generator)
  | action :: actions => do
    match ← generator.performChecked limit action with
    | (events, .error error) => .ok (events, .error error)
    | (events, .ok later) =>
      let (more, result) ← later.performAllChecked limit actions
      .ok (events ++ more, result)

end Generator

/-- Counts the instructions that were written whole. -/
def Writer.writeChecked (writer : Writer) (instruction : Instruction) :
    Checked (Writer × Option SinkError) :=
  match writer.write instruction with
  | (later, none) => do
    let _ ← Checked.size (writer.count + 1)
    .ok (later, none)
  | (later, some error) => .ok (later, some error)

def Compilation.writeOntoChecked (messages : Array Message) (writer : Writer) :
    List Event → Checked (Array Message × Writer × Option SinkError)
  | [] => .ok (messages, writer, none)
  | event :: events => do
    let messages := messages.push event.message
    match event.instruction? with
    | none => writeOntoChecked messages writer events
    | some instruction =>
      match ← writer.writeChecked instruction with
      | (writer, none) => writeOntoChecked messages writer events
      | (writer, some error) => .ok (messages, writer, some error)

/-- Compiling in the middle of a class: what is left of it, and what was made of it so far. -/
structure Engine where
  recognizer : Recognizer
  generator : Generator
  messages : Array Message
  writer : Writer

namespace Engine

def ofTokens (tokens : List Token) (sink : Sink) : Engine :=
  ⟨.ofTokens tokens, .start, #[], .ofSink sink⟩

/-- Ends early. The levels that were open when the step began are left one by one. -/
def fail (engine : Engine) (failure : Compilation.Failure) : Checked Compilation := do
  Goal.leave 0 engine.generator.depth engine.recognizer.goals
  .ok ⟨engine.messages.toList, engine.writer.sink, .error failure⟩

/-- Ends where the recognizer does. -/
def finish (engine : Engine) : Option SyntaxError → Checked Compilation
  | some error => engine.fail (.refused (.unexpected error))
  | none =>
    match engine.writer.flush with
    | some error => engine.fail (.sink error)
    | none => do
      Goal.leave 0 engine.generator.depth engine.recognizer.goals
      let summary :=
        ⟨engine.generator.className, engine.generator.subroutines, engine.writer.count⟩
      .ok ⟨engine.messages.toList, engine.writer.sink, .ok summary⟩

/-- Carries actions out and writes what they emit. -/
def act (limit : UInt64) (engine : Engine) (actions : List Action) :
    Checked (Engine × Option Compilation.Failure) := do
  let (events, result) ← engine.generator.performAllChecked limit actions
  let (messages, writer, failed) ←
    Compilation.writeOntoChecked engine.messages engine.writer events
  let written := { engine with messages, writer }
  match failed, result with
  | some error, _ => .ok (written, some (.sink error))
  | none, .error error => .ok (written, some (.refused error))
  | none, .ok generator => .ok ({ written with generator }, none)

/-- Goes on step by step to the end. -/
def run (limit : UInt64) (engine : Engine) : Checked Compilation :=
  match engine.recognizer.stepChecked with
  | .error fault => .error fault
  | .ok (.error ended) => engine.finish ended
  | .ok (.ok (actions, next)) =>
    match engine.act limit actions with
    | .error fault => .error fault
    | .ok (later, some failure) => later.fail failure
    | .ok (later, none) =>
      if next.measure < engine.recognizer.measure then run limit { later with recognizer := next }
      else .error .stuck
termination_by engine.recognizer.measure

end Engine

namespace Generator

variable {limit : Nat} {generator later : Generator} {action : Action} {actions : List Action}

theorem length_string_le (generator : Generator) (constant : Token) :
    (generator.string constant).1.length ≤ 2 ^ 16 := by
  rw [string_eq]
  split
  · exact Nat.zero_le _
  · rename_i small
    have front : ((textOf constant).takeWhile fitsConstant).length ≤ (textOf constant).length :=
      (List.takeWhile_sublist _).length_le
    simp only [maxConstant] at small
    simp only [List.length_map, List.length_append, List.length_cons, List.length_nil,
      List.length_flatMap, appendChar, List.map_const', List.sum_replicate_nat]
    omega

/-- No action emits more than a string does. -/
theorem length_perform_le (limit : Nat) (generator : Generator) (action : Action) :
    (generator.perform limit action).1.length ≤ 2 ^ 16 := by
  cases action with
  | string constant => exact generator.length_string_le constant
  | beginBody =>
    simp only [perform, beginBody]
    cases generator.kind <;> simp [prologue]
  | receiver call =>
    simp only [perform, emit]
    cases receiver? generator.scope call <;> simp
  | beginSubroutine kind =>
    simp only [perform, beginSubroutine, declare]
    repeat' split
    all_goals exact Nat.zero_le _
  | declare | resolve | load | store | integer | nest | argument =>
    simp only [perform, declare, withVariable]
    repeat' split
    all_goals simp [emit, refuse]
  | _ => simp [perform, emit]

theorem counts_perform (done : (generator.perform limit action).2 = .ok later) :
    later.subroutines ≤ generator.subroutines + 1 ∧
      (action.staysLevel = true → later.depth = generator.depth) := by
  cases action with
  | beginSubroutine kind =>
    simp only [perform, beginSubroutine, declare] at done
    repeat' split at done
    all_goals cases done
    all_goals exact ⟨Nat.le_refl _, fun _ => rfl⟩
  | string constant =>
    simp only [perform, string_eq] at done
    repeat' split at done
    all_goals cases done
    all_goals exact ⟨Nat.le_succ _, fun _ => rfl⟩
  | nest =>
    simp only [perform] at done
    split at done <;> cases done
    exact ⟨Nat.le_succ _, fun stays => Bool.noConfusion stays⟩
  | unnest =>
    cases done
    exact ⟨Nat.le_succ _, fun stays => Bool.noConfusion stays⟩
  | declare | resolve | load | store | integer | argument =>
    simp only [perform, declare, withVariable] at done
    repeat' split at done
    all_goals cases done
    all_goals exact ⟨Nat.le_succ _, fun _ => rfl⟩
  | _ =>
    cases done
    exact ⟨Nat.le_succ _, fun _ => rfl⟩

theorem length_performAll_le (limit : Nat) (generator : Generator) (actions : List Action) :
    (generator.performAll limit actions).1.length ≤ 2 ^ 16 * actions.length := by
  induction actions generalizing generator with
  | nil => exact Nat.le_refl 0
  | cons action actions ih =>
    have first := generator.length_perform_le limit action
    rw [performAll_cons, List.length_cons]
    rcases performed : generator.perform limit action with ⟨events, refused | later⟩ <;>
      rw [performed] at first
    · dsimp only at first ⊢
      omega
    · have others := ih later
      rw [List.length_append]
      dsimp only at first ⊢
      omega

theorem counts_performAll (done : (generator.performAll limit actions).2 = .ok later) :
    later.subroutines ≤ generator.subroutines + actions.length ∧
      (actions.all Action.staysLevel = true → later.depth = generator.depth) := by
  induction actions generalizing generator with
  | nil =>
    obtain rfl := Except.ok.inj done
    exact ⟨Nat.le_refl _, fun _ => rfl⟩
  | cons action actions ih =>
    rw [performAll_cons] at done
    rcases performed : generator.perform limit action with ⟨events, refused | middle⟩ <;>
      rw [performed] at done
    · cases done
    · obtain ⟨first, level⟩ := counts_perform (congrArg Prod.snd performed)
      obtain ⟨others, levels⟩ := ih done
      refine ⟨?_, fun stays => ?_⟩
      · rw [List.length_cons]
        omega
      · obtain ⟨own, rest⟩ := Bool.and_eq_true_iff.1 stays
        exact (levels rest).trans (level own)

theorem depth_nest {line : Nat}
    (done : (generator.performAll limit [.nest line]).2 = .ok later) :
    later.depth = generator.depth + 1 := by
  rw [performAll_cons] at done
  by_cases deep : limit ≤ generator.depth
  · simp only [perform, if_pos deep, refuse] at done
    cases done
  · simp only [perform, if_neg deep] at done
    cases done
    rfl

theorem depth_unnest (done : (generator.performAll limit [.unnest]).2 = .ok later) :
    later.depth = generator.depth - 1 := by
  cases done
  rfl

end Generator

namespace Generator

variable {limit : UInt64} {generator : Generator} {action : Action} {actions : List Action}

theorem performChecked_eq (counts : generator.subroutines + 1 < 2 ^ 64)
    (open_ : action = .unnest → 0 < generator.depth) :
    generator.performChecked limit action = .ok (generator.perform limit.toNat action) := by
  cases action with
  | nest line =>
    by_cases deep : limit.toNat ≤ generator.depth
    · simp only [performChecked, perform, if_pos deep]
    · have fits : generator.depth + 1 < 2 ^ 64 := by
        have word := limit.toNat_lt
        omega
      simp only [performChecked, perform, if_neg deep, Checked.size, if_pos fits]
      rfl
  | unnest =>
    obtain ⟨outer, isOuter⟩ := Nat.exists_eq_add_one.2 (open_ rfl)
    simp only [performChecked, perform, isOuter]
    rfl
  | beginSubroutine kind name =>
    simp only [performChecked, perform, Checked.size, if_pos counts]
    rfl
  | _ => rfl

theorem performAllChecked_singleton (counts : generator.subroutines + 1 < 2 ^ 64)
    (open_ : action = .unnest → 0 < generator.depth) :
    generator.performAllChecked limit [action] =
      .ok (generator.performAll limit.toNat [action]) := by
  rw [performAllChecked, performChecked_eq counts open_, Checked.ok_bind, performAll_cons]
  rcases generator.perform limit.toNat action with ⟨events, refused | later⟩ <;> rfl

theorem performAllChecked_eq (counts : generator.subroutines + actions.length < 2 ^ 64)
    (stays : actions.all Action.staysLevel = true) :
    generator.performAllChecked limit actions = .ok (generator.performAll limit.toNat actions) := by
  induction actions generalizing generator with
  | nil => rfl
  | cons action actions ih =>
    obtain ⟨own, others⟩ := Bool.and_eq_true_iff.1 stays
    rw [List.length_cons] at counts
    have noEnd : action = .unnest → 0 < generator.depth := by
      rintro rfl
      cases own
    rw [performAllChecked, performChecked_eq (by omega) noEnd, Checked.ok_bind, performAll_cons]
    rcases performed : generator.perform limit.toNat action with ⟨events, refused | later⟩
    · rfl
    · have first := (counts_perform (congrArg Prod.snd performed)).1
      dsimp only
      rw [ih (by omega) others]
      rfl

end Generator

theorem Writer.count_write_le (writer : Writer) (instruction : Instruction) :
    (writer.write instruction).1.count ≤ writer.count + 1 := by
  unfold write
  split
  · exact Nat.le_refl _
  · exact Nat.le_succ _

theorem Writer.writeChecked_eq {writer : Writer} (room : writer.count + 1 < 2 ^ 64)
    (instruction : Instruction) :
    writer.writeChecked instruction = .ok (writer.write instruction) := by
  unfold writeChecked
  rcases writer.write instruction with ⟨later, _ | error⟩
  · rw [Checked.size, if_pos room]
    rfl
  · rfl

namespace Compilation

theorem count_writeOnto_le (messages : Array Message) (writer : Writer) (events : List Event) :
    (writeOnto messages writer events).2.1.count ≤ writer.count + events.length := by
  induction events generalizing messages writer with
  | nil => exact Nat.le_refl _
  | cons event events ih =>
    rw [writeOnto, List.length_cons]
    cases event.instruction? with
    | none => exact Nat.le_succ_of_le (ih _ writer)
    | some instruction =>
      have one := writer.count_write_le instruction
      rcases wrote : writer.write instruction with ⟨later, _ | error⟩ <;> rw [wrote] at one
      · have others := ih (messages.push event.message) later
        dsimp only at one ⊢
        rw [wrote]
        dsimp only
        omega
      · dsimp only at one ⊢
        rw [wrote]
        dsimp only
        omega

theorem writeOntoChecked_eq {writer : Writer} {events : List Event}
    (room : writer.count + events.length < 2 ^ 64) (messages : Array Message) :
    writeOntoChecked messages writer events = .ok (writeOnto messages writer events) := by
  induction events generalizing messages writer with
  | nil => rfl
  | cons event events ih =>
    rw [List.length_cons] at room
    rw [writeOntoChecked, writeOnto]
    cases event.instruction? with
    | none => exact ih (by omega) _
    | some instruction =>
      have one := writer.count_write_le instruction
      dsimp only
      rw [Writer.writeChecked_eq (by omega), Checked.ok_bind]
      rcases wrote : writer.write instruction with ⟨later, _ | error⟩
      · rw [wrote] at one
        exact ih (by dsimp only at one; omega) _
      · rfl

end Compilation

end Jack
