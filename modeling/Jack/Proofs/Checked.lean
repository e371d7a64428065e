import Jack.Proofs.Checked.Engine
import Jack.Proofs.Checked.Scanner

namespace Jack

/-- The code from the middle of a class on. -/
def ClassCode.ofRun (limit : Nat) (generator : Generator)
    (run : List Action × Option SyntaxError) : ClassCode :=
  match generator.performAll limit run.1, run.2 with
  | (events, .ok generator), none => ⟨events, .ok generator⟩
  | (events, .ok _), some error => ⟨events, .error (.unexpected error)⟩
  | (events, .error error), _ => ⟨events, .error error⟩

/-- What a compilation comes to behind what it has written. -/
def Compilation.conclude (written : Array Message × Writer × Option SinkError)
    (result : Except CompileError Generator) : Compilation :=
  let (messages, writer, failed) := written
  let result :=
    match failed, result with
    | some error, _ => .error (.sink error)
    | none, .error error => .error (.refused error)
    | none, .ok generator =>
      match writer.flush with
      | some error => .error (.sink error)
      | none => .ok ⟨generator.className, generator.subroutines, writer.count⟩
  ⟨messages.toList, writer.sink, result⟩

/-- The outcome of a class where all of what is left is recognised before it is carried out. -/
def Engine.outcome (limit : Nat) (engine : Engine) : Compilation :=
  let code := ClassCode.ofRun limit engine.generator engine.recognizer.run
  .conclude (Compilation.writeOnto engine.messages engine.writer code.events) code.result

/-- A step without checks: what it writes and learns, and what it fails for. -/
def Engine.acted (limit : Nat) (engine : Engine) (actions : List Action) :
    Engine × Option Compilation.Failure :=
  let (events, result) := engine.generator.performAll limit actions
  let (messages, writer, failed) := Compilation.writeOnto engine.messages engine.writer events
  let written := { engine with messages, writer }
  match failed, result with
  | some error, _ => (written, some (.sink error))
  | none, .error error => (written, some (.refused error))
  | none, .ok generator => ({ written with generator }, none)

theorem ClassCode.ofRun_append (limit : Nat) (generator : Generator) (actions : List Action)
    (run : List Action × Option SyntaxError) :
    ofRun limit generator (actions ++ run.1, run.2) =
      match generator.performAll limit actions with
      | (events, .ok later) =>
        ⟨events ++ (ofRun limit later run).events, (ofRun limit later run).result⟩
      | (events, .error error) => ⟨events, .error error⟩ := by
  obtain ⟨rest, failure⟩ := run
  simp only [ofRun, Generator.performAll_append]
  rcases generator.performAll limit actions with ⟨events, refused | later⟩
  · cases failure <;> rfl
  · rcases performed : later.performAll limit rest with ⟨more, refused | last⟩ <;>
      cases failure <;> simp only [performed]

namespace Engine

variable {limit : UInt64} {engine : Engine} {next : Recognizer} {actions : List Action}

theorem outcome_ofTokens (limit : Nat) (tokens : List Token) (sink : Sink) :
    (ofTokens tokens sink).outcome limit = Compilation.ofTokens limit tokens sink :=
  rfl

/-- What a step asks for may be carried out and written before the rest is recognised. -/
theorem outcome_of_step (limit : Nat) (moved : engine.recognizer.step = .ok (actions, next)) :
    engine.outcome limit =
      match engine.acted limit actions with
      | (later, some failure) => ⟨later.messages.toList, later.writer.sink, .error failure⟩
      | (later, none) => outcome limit { later with recognizer := next } := by
  unfold outcome acted
  rw [Recognizer.run_of_step moved, ClassCode.ofRun_append]
  rcases engine.generator.performAll limit actions with ⟨events, refused | later⟩
  · dsimp only
    rcases Compilation.writeOnto engine.messages engine.writer events with
      ⟨messages, writer, _ | failed⟩ <;> rfl
  · dsimp only
    rw [Compilation.writeOnto_append]
    rcases Compilation.writeOnto engine.messages engine.writer events with
      ⟨messages, writer, _ | failed⟩ <;> rfl

/-- A step that fails has changed nothing but what was written. -/
theorem eq_of_acted_some {limit : Nat} {later : Engine} {failure : Compilation.Failure}
    (failed : engine.acted limit actions = (later, some failure)) :
    later.recognizer = engine.recognizer ∧ later.generator = engine.generator := by
  unfold acted at failed
  dsimp only at failed
  split at failed <;> cases failed <;> exact ⟨rfl, rfl⟩

theorem eq_of_acted_none {limit : Nat} {later : Engine}
    (done : engine.acted limit actions = (later, none)) :
    (engine.generator.performAll limit actions).2 = .ok later.generator ∧
      Compilation.writeOnto engine.messages engine.writer
        (engine.generator.performAll limit actions).1 = (later.messages, later.writer, none) := by
  unfold acted at done
  dsimp only at done
  split at done <;> cases done
  rename_i whole performed
  exact ⟨performed, Prod.ext rfl (Prod.ext rfl whole)⟩

/-- All counts fit in their words with what is left of the class, and all levels can be left. -/
structure Steady (engine : Engine) : Prop where
  ifs : engine.recognizer.numbering.ifs + engine.recognizer.stream.rest.length < 2 ^ 32
  whiles : engine.recognizer.numbering.whiles + engine.recognizer.stream.rest.length < 2 ^ 32
  paired : engine.recognizer.Paired engine.generator.depth
  subroutines : engine.generator.subroutines + 4 * engine.recognizer.measure < 2 ^ 64
  written : engine.writer.count + 2 ^ 18 * engine.recognizer.measure < 2 ^ 64

theorem steady_ofTokens {tokens : List Token} (few : tokens.length < 2 ^ 32) (sink : Sink) :
    (ofTokens tokens sink).Steady := by
  have measure : (ofTokens tokens sink).recognizer.measure = 32 * tokens.length + 6 := rfl
  refine ⟨?_, ?_, Recognizer.paired_ofTokens tokens, ?_, ?_⟩
  · exact (Nat.zero_add _).symm ▸ few
  · exact (Nat.zero_add _).symm ▸ few
  · show 0 + 4 * (ofTokens tokens sink).recognizer.measure < _
    omega
  · show 0 + 2 ^ 18 * (ofTokens tokens sink).recognizer.measure < _
    omega

namespace Steady

/-- What a step asks for is carried out without a fault, and behind it all levels can be left. -/
theorem performs (limit : UInt64) (steady : engine.Steady)
    (moved : engine.recognizer.step = .ok (actions, next)) :
    engine.generator.performAllChecked limit actions =
        .ok (engine.generator.performAll limit.toNat actions) ∧
      actions.length ≤ 4 ∧
      ∀ later, (engine.generator.performAll limit.toNat actions).2 = .ok later →
        next.Paired later.depth := by
  have lighter := Recognizer.measure_step moved
  have room := steady.subroutines
  obtain ⟨modest, paired⟩ | ⟨⟨line, rfl⟩, paired⟩ | ⟨rfl, outer, isOuter, paired⟩ :=
    steady.paired.step moved
  · obtain ⟨few, stays⟩ := Bool.and_eq_true_iff.1 modest
    have few : actions.length ≤ 4 := of_decide_eq_true few
    refine ⟨Generator.performAllChecked_eq (by omega) stays, few, fun later done => ?_⟩
    rw [(Generator.counts_performAll done).2 stays]
    exact paired
  · refine ⟨Generator.performAllChecked_singleton (by omega) nofun, by simp, fun later done => ?_⟩
    rw [Generator.depth_nest done]
    exact paired
  · refine ⟨Generator.performAllChecked_singleton (by omega) fun _ => by omega, by simp,
      fun later done => ?_⟩
    rw [Generator.depth_unnest done, isOuter]
    exact paired

theorem acts (steady : engine.Steady) (moved : engine.recognizer.step = .ok (actions, next)) :
    engine.act limit actions = .ok (engine.acted limit.toNat actions) := by
  obtain ⟨performs, few, -⟩ := steady.performs limit moved
  have lighter := Recognizer.measure_step moved
  have room := steady.written
  have emits := engine.generator.length_performAll_le limit.toNat actions
  rw [act, acted, performs, Checked.ok_bind]
  dsimp only
  rw [Compilation.writeOntoChecked_eq (by omega), Checked.ok_bind]
  split <;> simp only [*]

/-- Behind a step all counts still fit. -/
theorem step {later : Engine} (steady : engine.Steady)
    (moved : engine.recognizer.step = .ok (actions, next))
    (done : engine.acted limit.toNat actions = (later, none)) :
    Steady { later with recognizer := next } := by
  obtain ⟨performed, written⟩ := eq_of_acted_none done
  obtain ⟨-, few, paired⟩ := steady.performs limit moved
  obtain ⟨ifs, whiles⟩ := Recognizer.counts_step moved
  have lighter := Recognizer.measure_step moved
  have begun := (Generator.counts_performAll performed).1
  have emits := engine.generator.length_performAll_le limit.toNat actions
  have count := Compilation.count_writeOnto_le engine.messages engine.writer
    (engine.generator.performAll limit.toNat actions).1
  rw [written] at count
  refine ⟨Nat.lt_of_le_of_lt ifs steady.ifs, Nat.lt_of_le_of_lt whiles steady.whiles,
    paired _ performed, ?_, ?_⟩
  · have room := steady.subroutines
    dsimp only
    omega
  · have room := steady.written
    dsimp only at count ⊢
    omega

/-- Wherever it ends, all levels are left. -/
theorem fails (steady : engine.Steady) (failure : Compilation.Failure) :
    engine.fail failure = .ok ⟨engine.messages.toList, engine.writer.sink, .error failure⟩ := by
  rw [fail, steady.paired.leaves, Checked.ok_bind]

theorem finishes (steady : engine.Steady) {ended : Option SyntaxError}
    (stopped : engine.recognizer.step = .error ended) :
    engine.finish ended = .ok (engine.outcome limit.toNat) := by
  rw [outcome, Recognizer.run_of_stop stopped]
  cases ended with
  | some error =>
    rw [finish, steady.fails]
    rfl
  | none =>
    show engine.finish none =
      .ok (.conclude (engine.messages, engine.writer, none) (.ok engine.generator))
    unfold finish Compilation.conclude
    dsimp only
    cases engine.writer.flush with
    | some error => exact steady.fails (.sink error)
    | none =>
      dsimp only
      rw [steady.paired.leaves, Checked.ok_bind]

end Steady

/-- Step by step and with all operations checked, a class comes to the same end. -/
theorem run_eq (steady : engine.Steady) : engine.run limit = .ok (engine.outcome limit.toNat) := by
  -- Each step takes a token or leaves lighter goals.
  induction size : engine.recognizer.measure using Nat.strongRecOn generalizing engine with
  | ind n ih =>
    rw [run, Recognizer.stepChecked_eq steady.ifs steady.whiles]
    cases moved : engine.recognizer.step with
    | error ended => exact steady.finishes moved
    | ok moves =>
      obtain ⟨actions, next⟩ := moves
      have lighter := Recognizer.measure_step moved
      dsimp only
      rw [steady.acts moved, outcome_of_step limit.toNat moved]
      rcases acted : engine.acted limit.toNat actions with ⟨later, _ | failure⟩
      · dsimp only
        rw [if_pos lighter]
        exact ih _ (size ▸ lighter) (steady.step moved acted) rfl
      · obtain ⟨recognizer, generator⟩ := eq_of_acted_some acted
        dsimp only
        rw [fail, recognizer, generator, steady.paired.leaves, Checked.ok_bind]

end Engine

/-- Each token of a text has a byte of its own. -/
theorem Scans.length_le {place : Position} {text : List Char} {tokens : List Token}
    {warnings : List Warning} (scans : Scans place text tokens warnings) :
    tokens.length ≤ (String.ofList text).utf8ByteSize := by
  induction scans with
  | nothing place => exact Nat.zero_le _
  | skip skipped fits further ih =>
    rw [String.ofList_append, String.utf8ByteSize_append]
    exact Nat.le_trans ih (Nat.le_add_left _ _)
  | token reads fits further ih =>
    have own := Piece.utf8ByteSize_pos fits
    rw [String.ofList_append, String.utf8ByteSize_append, List.length_cons]
    omega

theorem Finding.length_tokens_le (source : String) :
    (tokens (ofSource source)).length ≤ source.utf8ByteSize := by
  have scans : Scans .start source.toList (tokens (ofSource source)) (warnings (ofSource source)) :=
    Scans.of_cut .start source.toList
  have bytes := scans.length_le
  rwa [String.ofList_toList] at bytes

namespace Compilation

/-- Compiles tokens with all operations checked. -/
def ofTokensChecked (limit : UInt64) (tokens : List Token) (sink : Sink) : Checked Compilation :=
  (Engine.ofTokens tokens sink).run limit

/-- Scans and compiles a source text with all operations checked. -/
def ofSourceChecked (limit : UInt64) (source : String) (sink : Sink) : Checked Compilation := do
  let findings ← Finding.scan source
  let compilation ← ofTokensChecked limit (Finding.tokens findings) sink
  let done :=
    match compilation.result with
    | .ok summary => [summary.message]
    | .error _ => []
  .ok { compilation with
    messages := (Finding.warnings findings).map Warning.message ++ compilation.messages ++ done }

theorem ofTokensChecked_eq {tokens : List Token} (few : tokens.length < 2 ^ 32) (limit : UInt64)
    (sink : Sink) : ofTokensChecked limit tokens sink = .ok (ofTokens limit.toNat tokens sink) := by
  rw [ofTokensChecked, Engine.run_eq (Engine.steady_ofTokens few sink), Engine.outcome_ofTokens]

/-- Whatever the limit and the sink are, no operation comes to a fault: neither in scanning and
compiling a source text whose bytes can be counted with one to spare, nor in compiling as many
tokens as can be counted, whatever they say of themselves. -/
theorem faultless (limit : UInt64) (sink : Sink) :
    (∀ source : String, source.utf8ByteSize ≤ 2 ^ 32 - 2 →
      Finding.scan source = .ok (Finding.ofSource source) ∧
        ofSourceChecked limit source sink = .ok (ofSource limit.toNat source sink)) ∧
    ∀ tokens : List Token, tokens.length < 2 ^ 32 →
      ofTokensChecked limit tokens sink = .ok (ofTokens limit.toNat tokens sink) := by
  refine ⟨fun source short => ?_, fun tokens few => ofTokensChecked_eq few limit sink⟩
  have scans := @Finding.scan_eq source (by omega)
  have few := Finding.length_tokens_le source
  refine ⟨scans, ?_⟩
  rw [ofSourceChecked, scans, Checked.ok_bind, ofTokensChecked_eq (by omega), Checked.ok_bind]
  rfl

/-- Tokens that pass for a class by their kinds, though all else they say of themselves is wrong. -/
def disagreeingTokens : List Token :=
  [(.keyword .kwClass, "("), (.identifier, "7"), (.symbol .leftBrace, "if"),
    (.symbol .rightBrace, "")].map fun (kind, lexeme) =>
      ⟨kind, lexeme, some (.number 7), ⟨4294967295, 4294967295⟩, 0, 2, 1⟩

/-- A class with choices and loops, under a limit that it keeps and under one that is exceeded where
two levels are open, and tokens that disagree with themselves. -/
theorem faultless_branching :
    branchingSource.utf8ByteSize ≤ 2 ^ 32 - 2 ∧
      ofSourceChecked 4 branchingSource .unlimited = .ok (ofSource 4 branchingSource .unlimited) ∧
      (ofSource 4 branchingSource .unlimited).result = .ok ⟨"Main", 1, 44⟩ ∧
      ofSourceChecked 2 branchingSource .unlimited = .ok (ofSource 2 branchingSource .unlimited) ∧
      (ofSource 2 branchingSource .unlimited).result =
        .error (.refused (.nestingTooDeep 4 2)) ∧
      disagreeingTokens.length < 2 ^ 32 ∧
      ofTokensChecked 0 disagreeingTokens .unlimited =
        .ok (ofTokens 0 disagreeingTokens .unlimited) ∧
      (ofTokens 0 disagreeingTokens .unlimited).result = .ok ⟨"7", 0, 0⟩ :=
  have short : branchingSource.utf8ByteSize ≤ 2 ^ 32 - 2 := by decide +kernel
  ⟨short, ((faultless 4 .unlimited).1 _ short).2, branchingSource_compiled,
    ((faultless 2 .unlimited).1 _ short).2, by decide +kernel, by decide +kernel,
    (faultless 0 .unlimited).2 _ (by decide +kernel), by decide +kernel⟩

end Compilation

end Jack
