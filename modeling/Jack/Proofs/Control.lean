import Mathlib.Logic.Relation
import Jack.Proofs.Execution
import Jack.Proofs.Labels

namespace Jack

/-- A machine in front of one of the instructions of its code. -/
structure Activation where
  place : Nat
  machine : Machine

namespace Activation

/-- The place of a label. -/
def destination? (code : List Instruction) (name : String) : Option Nat :=
  code.findIdx? (· = .label name)

/-- One instruction more. Behind the code nothing is left to do, and `ret` leaves it. -/
def step? (oracle : Oracle) (code : List Instruction) (here : Activation) : Option Activation :=
  match code[here.place]? with
  | none | some .ret => none
  | some (.label _) => some ⟨here.place + 1, here.machine⟩
  | some (.function _ count) =>
    some ⟨here.place + 1, { here.machine with frame := here.machine.frame.cleared count }⟩
  | some (.goto name) => (destination? code name).map fun place => ⟨place, here.machine⟩
  | some (.ifGoto name) =>
    match here.machine.stack with
    | [] => none
    | word :: stack =>
      let machine := { here.machine with stack }
      if word = 0 then some ⟨here.place + 1, machine⟩
      else (destination? code name).map fun place => ⟨place, machine⟩
  | some instruction =>
    (here.machine.effect? oracle instruction).map fun machine => ⟨here.place + 1, machine⟩

/-- Leads on in any number of steps. -/
def Reaches (oracle : Oracle) (code : List Instruction) : Activation → Activation → Prop :=
  Relation.ReflTransGen fun here next => here.step? oracle code = some next

end Activation

/-- Part of the code of a function, at its place. -/
def Placed (code : List Instruction) (place : Nat) (part : List Instruction) : Prop :=
  part <+: code.drop place

namespace Placed

variable {code first last : List Instruction} {place : Nat}

theorem front (placed : Placed code place (first ++ last)) : Placed code place first :=
  (List.prefix_append ..).trans placed

theorem back (placed : Placed code place (first ++ last)) :
    Placed code (place + first.length) last := by
  obtain ⟨rest, whole⟩ := placed
  refine ⟨rest, ?_⟩
  rw [← List.drop_drop, ← whole, List.append_assoc, List.drop_left]

theorem head {instruction : Instruction} (placed : Placed code place (instruction :: last)) :
    code[place]? = some instruction := by
  obtain ⟨rest, whole⟩ := placed
  rw [← List.head?_drop, ← whole]
  rfl

theorem tail {instruction : Instruction} (placed : Placed code place (instruction :: last)) :
    Placed code (place + 1) last := by
  have one : Placed code place ([instruction] ++ last) := placed
  exact one.back

end Placed

namespace Activation

variable {oracle : Oracle} {code part : List Instruction} {name : String} {place there : Nat}
  {machine next : Machine}

/-- A label stands at one place only, where no two marks are the same. -/
theorem destination?_eq (distinct : (marks code).Nodup)
    (isThere : code[there]? = some (.label name)) : destination? code name = some there := by
  induction code generalizing there with
  | nil => cases isThere
  | cons instruction code ih =>
    rw [destination?, List.findIdx?_cons]
    cases there with
    | zero =>
      cases isThere
      simp
    | succ there =>
      have isThere : code[there]? = some (.label name) := isThere
      have member : .label name ∈ marks code :=
        List.mem_filter.2 ⟨List.mem_of_getElem? isThere, rfl⟩
      have other : instruction ≠ .label name := by
        rintro rfl
        exact (List.nodup_cons.1 distinct).1 member
      have others : (marks code).Nodup := distinct.sublist ((List.sublist_cons_self ..).filter _)
      rw [if_neg (by simpa using other), ← destination?, ih others isThere]
      rfl

theorem reaches_effect {instruction : Instruction} (isHere : code[place]? = some instruction)
    (acts : machine.effect? oracle instruction = some next) :
    Reaches oracle code ⟨place, machine⟩ ⟨place + 1, next⟩ := by
  refine .single ?_
  cases instruction <;> first | cases acts | simp only [step?, isHere, acts, Option.map_some]

theorem reaches_execute (placed : Placed code place part)
    (done : machine.execute? oracle part = some next) :
    Reaches oracle code ⟨place, machine⟩ ⟨place + part.length, next⟩ := by
  induction part generalizing place machine with
  | nil =>
    cases done
    exact .refl
  | cons instruction part ih =>
    obtain ⟨middle, acts, rest⟩ := Option.bind_eq_some_iff.1 done
    have onward := ih placed.tail rest
    rw [Nat.add_right_comm] at onward
    exact (reaches_effect placed.head acts).trans onward

theorem reaches_label (oracle : Oracle) (machine : Machine)
    (isHere : code[place]? = some (.label name)) :
    Reaches oracle code ⟨place, machine⟩ ⟨place + 1, machine⟩ :=
  .single (by simp only [step?, isHere])

theorem reaches_function (oracle : Oracle) (machine : Machine) {count : Nat}
    (isHere : code[place]? = some (.function name count)) :
    Reaches oracle code ⟨place, machine⟩
      ⟨place + 1, { machine with frame := machine.frame.cleared count }⟩ :=
  .single (by simp only [step?, isHere])

theorem reaches_goto (oracle : Oracle) (machine : Machine) (distinct : (marks code).Nodup)
    (isHere : code[place]? = some (.goto name)) (isThere : code[there]? = some (.label name)) :
    Reaches oracle code ⟨place, machine⟩ ⟨there, machine⟩ :=
  .single (by simp only [step?, isHere, destination?_eq distinct isThere, Option.map_some])

theorem reaches_ifGoto (oracle : Oracle) {word : Word} {stack : List Word}
    (distinct : (marks code).Nodup) (isHere : code[place]? = some (.ifGoto name))
    (isThere : code[there]? = some (.label name)) (top : machine.stack = word :: stack)
    (holds : word ≠ 0) :
    Reaches oracle code ⟨place, machine⟩ ⟨there, { machine with stack }⟩ :=
  .single (by simp only [step?, isHere, top, if_neg holds, destination?_eq distinct isThere,
    Option.map_some])

theorem reaches_ifGoto_zero (oracle : Oracle) {stack : List Word}
    (isHere : code[place]? = some (.ifGoto name)) (top : machine.stack = 0 :: stack) :
    Reaches oracle code ⟨place, machine⟩ ⟨place + 1, { machine with stack }⟩ :=
  .single (by simp only [step?, isHere, top, if_true])

/-- Ends where the statements of a piece of code end, with nothing left on the stack but a word
that is returned. -/
inductive Arrives (oracle : Oracle) (code : List Instruction) (here : Activation) (behind : Nat) :
    Ending → Store → Prop where
  | through {next : Machine} {last : Store} (reaches : Reaches oracle code here ⟨behind, next⟩)
      (stack : next.stack = here.machine.stack) (store : next.store = last) :
      Arrives oracle code here behind .through last
  | returned {place : Nat} {next : Machine} {word : Word} {last : Store}
      (reaches : Reaches oracle code here ⟨place, next⟩) (returns : code[place]? = some .ret)
      (stack : next.stack = word :: here.machine.stack) (store : next.store = last) :
      Arrives oracle code here behind (.returned word) last

namespace Arrives

variable {here middle : Activation} {behind further : Nat} {ending : Ending} {store last : Store}

theorem after (reaches : Reaches oracle code here middle)
    (stack : middle.machine.stack = here.machine.stack)
    (arrives : Arrives oracle code middle behind ending last) :
    Arrives oracle code here behind ending last := by
  cases arrives with
  | through reaches' stack' store =>
    exact .through (reaches.trans reaches') (stack'.trans stack) store
  | returned reaches' returns stack' store =>
    exact .returned (reaches.trans reaches') returns (stack ▸ stack') store

theorem followed (arrives : Arrives oracle code here behind .through store)
    (onward : ∀ next : Machine, next.store = store →
      Arrives oracle code ⟨behind, next⟩ further ending last) :
    Arrives oracle code here further ending last := by
  cases arrives with
  | through reaches stack isStore => exact (onward _ isStore).after reaches stack

theorem onward (arrives : Arrives oracle code here behind ending last)
    (onward : ∀ next : Machine, Reaches oracle code ⟨behind, next⟩ ⟨further, next⟩) :
    Arrives oracle code here further ending last := by
  cases arrives with
  | through reaches stack store => exact .through (reaches.trans (onward _)) stack store
  | returned reaches returns stack store => exact .returned reaches returns stack store

end Arrives

end Activation

end Jack
