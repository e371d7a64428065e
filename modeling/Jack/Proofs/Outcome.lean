import Jack.Compilation.Generator
import Jack.Proofs.Translation
import Mathlib.Data.List.TakeWhile

namespace Jack

theorem Event.filterMap_instruction (code : List Instruction) :
    (code.map Event.instruction).filterMap Event.instruction? = code := by
  rw [List.filterMap_map]
  exact List.filterMap_some

namespace Generator

/-- What the code behind a place depends on. -/
def environment (generator : Generator) : Environment :=
  ⟨generator.className, generator.name, generator.scope.lookup?⟩

/-- One level deeper. -/
def deeper (generator : Generator) : Generator :=
  { generator with depth := generator.depth + 1 }

@[simp] theorem environment_deeper (generator : Generator) :
    generator.deeper.environment = generator.environment :=
  rfl

@[simp] theorem depth_deeper (generator : Generator) :
    generator.deeper.depth = generator.depth + 1 :=
  rfl

theorem performAll_append (limit : Nat) (generator : Generator) (first last : List Action) :
    generator.performAll limit (first ++ last) =
      match generator.performAll limit first with
      | (events, .ok later) =>
        (events ++ (later.performAll limit last).1, (later.performAll limit last).2)
      | (events, .error error) => (events, .error error) := by
  induction first generalizing generator with
  | nil => rfl
  | cons action first ih =>
    rw [List.cons_append, performAll_cons, performAll_cons]
    rcases generator.perform limit action with ⟨events, error | later⟩
    · rfl
    · simp only [ih]
      rcases later.performAll limit first with ⟨middle, error | last⟩
      · rfl
      · simp only [List.append_assoc]

/-- Actions are carried out exactly under a condition. Then they emit events and lead from one
generator to another. -/
structure Performs (limit : Nat) (generator : Generator) (actions : List Action) (fits : Prop)
    (events : List Event) (later : Generator) : Prop where
  success : fits → generator.performAll limit actions = (events, .ok later)
  failure : ¬fits → ∃ emitted error, generator.performAll limit actions = (emitted, .error error)

namespace Performs

variable {limit : Nat} {generator middle later : Generator} {actions first last : List Action}
  {fits firstFits lastFits : Prop} {events firstEvents lastEvents : List Event}

theorem congr {others : Prop} {same : List Event}
    (performs : Performs limit generator actions fits events later) (iff : fits ↔ others)
    (equal : events = same) : Performs limit generator actions others same later := by
  subst equal
  exact ⟨fun holds => performs.success (iff.2 holds), fun fails => performs.failure (mt iff.1 fails)⟩

theorem nil (limit : Nat) (generator : Generator) : Performs limit generator [] True [] generator :=
  ⟨fun _ => rfl, fun fails => absurd trivial fails⟩

theorem append (front : Performs limit generator first firstFits firstEvents middle)
    (back : Performs limit middle last lastFits lastEvents later) :
    Performs limit generator (first ++ last) (firstFits ∧ lastFits) (firstEvents ++ lastEvents)
      later := by
  constructor
  · rintro ⟨fitsFirst, fitsLast⟩
    simp only [performAll_append, front.success fitsFirst, back.success fitsLast]
  · intro fails
    by_cases fitsFirst : firstFits
    · obtain ⟨emitted, error, stops⟩ := back.failure fun fitsLast => fails ⟨fitsFirst, fitsLast⟩
      exact ⟨firstEvents ++ emitted, error, by
        simp only [performAll_append, front.success fitsFirst, stops]⟩
    · obtain ⟨emitted, error, stops⟩ := front.failure fitsFirst
      exact ⟨emitted, error, by simp only [performAll_append, stops]⟩

/-- What is carried out fits, and nothing else can come of it. -/
theorem of_ok (performs : Performs limit generator actions fits events later) {emitted : List Event}
    {reached : Generator} (done : generator.performAll limit actions = (emitted, .ok reached)) :
    fits ∧ emitted = events ∧ reached = later := by
  by_cases holds : fits
  · rw [performs.success holds] at done
    obtain ⟨rfl, same⟩ := Prod.mk.inj done
    exact ⟨holds, rfl, (Except.ok.inj same).symm⟩
  · obtain ⟨_, _, stops⟩ := performs.failure holds
    rw [stops] at done
    cases (Prod.mk.inj done).2

/-- An action is carried out or refused, whatever comes behind it. -/
theorem single {action : Action}
    (success : fits → generator.perform limit action = (events, .ok later))
    (failure : ¬fits → ∃ emitted error, generator.perform limit action = (emitted, .error error)) :
    Performs limit generator [action] fits events later := by
  constructor
  · intro holds
    simp [success holds, performAll, performOnto]
  · intro fails
    obtain ⟨emitted, error, stops⟩ := failure fails
    exact ⟨emitted, error, by simp [performAll_cons, stops]⟩

theorem always {action : Action} (done : generator.perform limit action = (events, .ok later)) :
    Performs limit generator [action] True events later :=
  single (fun _ => done) fun fails => absurd trivial fails

end Performs

/-- Actions that emit instructions and learn nothing. -/
abbrev Emits (limit : Nat) (generator : Generator) (actions : List Action) (fits : Prop)
    (code : List Instruction) : Prop :=
  Performs limit generator actions fits (code.map .instruction) generator

variable (limit : Nat) (generator : Generator)

theorem emits_emit (code : List Instruction) :
    Emits limit generator (code.map .emit) True code := by
  induction code with
  | nil => exact .nil limit generator
  | cons instruction code ih =>
    have first : Emits limit generator [.emit instruction] True [instruction] := .always rfl
    exact (first.append ih).congr (by simp) rfl

theorem emits_mark (point : BranchPoint) :
    Emits limit generator [.mark point] True [.label (point.label generator.name)] :=
  .always rfl

theorem emits_jump (point : BranchPoint) :
    Emits limit generator [.jump point] True [.goto (point.label generator.name)] :=
  .always rfl

theorem emits_jumpIf (point : BranchPoint) :
    Emits limit generator [.jumpIf point] True [.ifGoto (point.label generator.name)] :=
  .always rfl

/-- An action on a variable is refused for a name that is none. -/
theorem emits_withVariable {action : Action} (name : Token) (code : Variable → List Instruction)
    (acts : generator.perform limit action =
      generator.withVariable name fun found => generator.emit (code found)) :
    Emits limit generator [action] (generator.environment.declared name.lexeme)
      (match generator.scope.lookup? name.lexeme with
        | some found => code found
        | none => []) := by
  unfold Environment.declared
  rw [withVariable] at acts
  cases found : generator.scope.lookup? name.lexeme with
  | none =>
    rw [found] at acts
    exact .single (by simp [environment, found]) fun _ => ⟨_, _, acts⟩
  | some target =>
    rw [found] at acts
    exact .single (fun _ => acts) (by simp [environment, found])

theorem emits_resolve (name : Token) :
    Emits limit generator [.resolve name] (generator.environment.declared name.lexeme) [] :=
  (emits_withVariable limit generator name (fun _ => []) rfl).congr .rfl (by split <;> rfl)

theorem emits_load (name : Token) :
    Emits limit generator [.load name] (generator.environment.declared name.lexeme)
      (generator.environment.push name.lexeme) :=
  emits_withVariable limit generator name (fun found => [.push found.kind.segment found.index]) rfl

theorem emits_store (name : Token) :
    Emits limit generator [.store name] (generator.environment.declared name.lexeme)
      (generator.environment.pop name.lexeme) :=
  emits_withVariable limit generator name (fun found => [.pop found.kind.segment found.index]) rfl

theorem perform_integer (constant : Token) :
    generator.perform limit (.integer constant) =
      match constant.literal.bind Literal.number? with
      | some value =>
        if value ≤ 32767 then generator.emit [.push .constant value]
        else refuse (.constantRange constant.line constant.lexeme)
      | none => refuse (.constantRange constant.line constant.lexeme) := by
  rcases literal : constant.literal with _ | ⟨_ | _⟩ <;> simp only [perform, literal] <;> rfl

theorem emits_integer (constant : Token) :
    Emits limit generator [.integer constant]
      (∃ small ≤ 32767, constant.literal.bind Literal.number? = some small)
      [.push .constant ((constant.literal.bind Literal.number?).getD 0)] := by
  have acts := perform_integer limit generator constant
  cases found : constant.literal.bind Literal.number? with
  | none =>
    rw [found] at acts
    exact .single (by simp) fun _ => ⟨_, _, acts⟩
  | some value =>
    simp only [found] at acts
    by_cases small : value ≤ 32767
    · rw [if_pos small] at acts
      exact .single (fun _ => acts) fun fails => absurd ⟨value, small, rfl⟩ fails
    · rw [if_neg small] at acts
      refine .single ?_ fun _ => ⟨_, _, acts⟩
      rintro ⟨_, within, same⟩
      cases same
      exact absurd within small

/-- The text of a string token. -/
def textOf (constant : Token) : List Char :=
  ((constant.literal.bind Literal.text?).getD "").toList

theorem string_eq (constant : Token) :
    generator.string constant =
      if maxConstant < (textOf constant).length then
        refuse (.constantRange constant.line constant.lexeme)
      else
        (([Instruction.push .constant (textOf constant).length, .call "String.new" 1] ++
          ((textOf constant).takeWhile fitsConstant).flatMap appendChar).map .instruction,
         if (textOf constant).all fitsConstant then .ok generator
         else .error (.constantRange constant.line constant.lexeme)) := by
  rcases literal : constant.literal with _ | ⟨_ | _⟩ <;>
    simp only [string, textOf, literal] <;> rfl

theorem emits_string (constant : Token) :
    Emits limit generator [.string constant]
      ((textOf constant).length ≤ 32767 ∧ ∀ c ∈ textOf constant, c.toNat ≤ 32767)
      (stringCode (textOf constant)) := by
  have acts : generator.perform limit (.string constant) = _ := generator.string_eq constant
  have all : (textOf constant).all fitsConstant = true ↔
      ∀ c ∈ textOf constant, c.toNat ≤ 32767 :=
    List.all_eq_true.trans (forall₂_congr fun _ _ => decide_eq_true_iff)
  by_cases long : maxConstant < (textOf constant).length
  · rw [if_pos long] at acts
    exact .single (fun fits => absurd fits.1 (Nat.not_le.2 long)) fun _ => ⟨_, _, acts⟩
  · rw [if_neg long] at acts
    refine .single (fun fits => ?_) fun fails => ?_
    · rw [acts, if_pos (all.2 fits.2), List.takeWhile_eq_self_iff.2 (List.all_eq_true.1 (all.2 fits.2))]
      rfl
    · have large : ¬(textOf constant).all fitsConstant = true :=
        fun fits => fails ⟨Nat.le_of_not_lt long, all.1 fits⟩
      rw [if_neg large] at acts
      exact ⟨_, _, acts⟩

theorem performs_nest (line : Nat) :
    Performs limit generator [.nest line] (generator.depth < limit) [] generator.deeper := by
  by_cases deep : limit ≤ generator.depth
  · exact .single (fun fits => absurd fits (Nat.not_lt.2 deep)) fun _ =>
      ⟨[], .nestingTooDeep line limit, by simp only [perform, if_pos deep, refuse]⟩
  · exact .single (fun _ => by simp only [perform, if_neg deep, deeper]) fun fails =>
      absurd (Nat.lt_of_not_le deep) fails

theorem performs_unnest : Performs limit generator.deeper [.unnest] True [] generator :=
  .always rfl

/-- The name in front of the dot of a call. -/
def Call.qualifierName (call : Call) : Option String :=
  call.qualifier.map Token.lexeme

theorem toList_receiver? (call : Call) :
    (receiver? generator.scope call).toList =
      generator.environment.receiver (Call.qualifierName call) := by
  rcases call with ⟨_ | name, callee⟩
  · rfl
  · simp only [receiver?, Call.qualifierName, Option.map_some, Environment.receiver,
      Environment.push, environment]
    cases generator.scope.lookup? name.lexeme <;> rfl

theorem calleeClass_eq (call : Call) :
    generator.calleeClass call = generator.environment.calleeClass (Call.qualifierName call) := by
  rcases call with ⟨_ | name, callee⟩ <;> rfl

theorem length_receiver (environment : Environment) (qualifier : Option String) :
    (environment.receiver qualifier).length = receivers environment.declared qualifier := by
  rcases qualifier with _ | name
  · rfl
  · cases found : environment.lookup? name <;>
      simp [Environment.receiver, Environment.push, receivers, Environment.declared, found]

theorem argumentCount_eq (call : Call) (count : Nat) :
    generator.argumentCount call count =
      receivers generator.environment.declared (Call.qualifierName call) + count := by
  rw [← length_receiver, ← toList_receiver?, argumentCount]
  cases receiver? generator.scope call with
  | none => simp
  | some => simp [Nat.add_comm]

theorem emits_receiver (call : Call) :
    Emits limit generator [.receiver call] True
      (generator.environment.receiver (Call.qualifierName call)) := by
  rw [← toList_receiver?]
  exact .always rfl

theorem emits_argument (call : Call) (count : Nat) :
    Emits limit generator [.argument call count]
      (receivers generator.environment.declared (Call.qualifierName call) + count ≤ 65535) [] := by
  rw [← argumentCount_eq]
  by_cases many : maxWord < generator.argumentCount call count
  · exact .single (fun fits => absurd fits (Nat.not_le.2 many)) fun _ =>
      ⟨[], .tooManyArguments call.callee.line call.callee.lexeme, by
        simp only [perform, if_pos many, refuse]⟩
  · exact .single (fun _ => by simp only [perform, if_neg many]; rfl) fun fails =>
      absurd (Nat.le_of_not_lt many) fails

theorem emits_call (call : Call) (count : Nat) :
    Emits limit generator [.call call count] True
      [.call (generator.environment.calleeClass (Call.qualifierName call) ++ "." ++
          call.callee.lexeme)
        ((generator.environment.receiver (Call.qualifierName call)).length + count)] := by
  rw [length_receiver, ← argumentCount_eq, ← calleeClass_eq]
  exact .always rfl

end Generator

end Jack
