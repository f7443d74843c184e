import LWorkbench.Machine.Effect
import LWorkbench.Proofs.Values

/-!
# Operators, bindings and calls

Most tasks that take values from the stack are operators: they put one result in the place of their
operands and leave memory as it is. What such a task does is said here once, so that the stack, the
memory and the functions inside of values need not be followed through each operator again. The same
is said of the tasks that bind variables and of calls. All of them either fail and leave memory as
it is, or do one thing.

## Main definitions

* `Task.operands?` — the number of operands of an operator
* `Task.operate` — the result of an operator

## Main results

* `Task.every_operate` — the functions inside a result are functions inside the operands
* `Memory.perform_operator`, `Memory.operator_cases` — what an operator does
* `Memory.declare_cases`, `Memory.assign_cases`, `Memory.call_cases` — what a binding and a call do
-/

namespace LWorkbench

/-- The number of operands of a task that puts one result in their place. -/
def Task.operands? : Task → Option Nat
  | .unary _ | .member _ => some 1
  | .binary _ | .index => some 2
  | .array count | .tuple count => some count
  | .object keys => some keys.length
  | _ => none

/-- The result of an operator, with the operands in the order in which they were put on the
stack. -/
def Task.operate : Task → List Value → Except Fault Value
  | .unary op, [v] => v.unary op
  | .binary op, [v, w] => v.binary op w
  | .member name, [v] => v.member name
  | .index, [v, w] => v.index w
  | .array _, items => .ok (.array items)
  | .tuple _, items => .ok (.tuple items)
  | .object keys, items => .ok (.object (keys.zip items))
  | _, _ => .error .missingValue

variable {P : Closure → Prop} {task : Task} {count : Nat} {operands : List Value}

/-- Operators make no functions. -/
theorem Task.every_operate (h : task.operands? = some count) (hcount : operands.length = count)
    (hoperands : ∀ v ∈ operands, v.Every P) : Except.Every P (task.operate operands) := by
  cases task with
  | unary op =>
    cases h
    match operands, hcount with
    | [v], _ => exact Value.every_unary op
  | binary op =>
    cases h
    match operands, hcount with
    | [v, w], _ => exact Value.every_binary op
  | member name =>
    cases h
    match operands, hcount with
    | [v], _ => exact (hoperands v List.mem_cons_self).member name
  | index =>
    cases h
    match operands, hcount with
    | [v, w], _ => exact (hoperands v List.mem_cons_self).index
  | array count => exact Value.Every.array hoperands
  | tuple count => exact Value.Every.tuple hoperands
  | object keys => exact Value.Every.object fun q hq => hoperands q.2 (List.of_mem_zip hq).2
  | _ => cases h

namespace Memory

variable (p : Program) (mem : Memory) (callers : List Frame) (frame : Frame)

/-! ### Operators -/

/-- An operator that finds its operands puts the result in their place, or fails with it. -/
theorem perform_operator (h : task.operands? = some count) (hcount : count ≤ frame.values.length) :
    mem.perform p callers frame task =
      (mem, .result { frame with values := frame.values.drop count }
        (task.operate (frame.values.take count).reverse)) := by
  obtain ⟨current, env, function, tasks, values⟩ := frame
  cases task with
  | unary | member =>
    cases h
    match values, hcount with
    | v :: values, _ => rfl
  | binary | index =>
    cases h
    match values, hcount with
    | v :: w :: values, _ => rfl
  | array | tuple | object =>
    cases h
    simp only [perform, Effect.withValues, if_pos hcount]
    rfl
  | _ => cases h

/-- Without its operands an operator fails. -/
theorem perform_operator_of_lt (h : task.operands? = some count)
    (hcount : frame.values.length < count) : ∃ values ⊆ frame.values,
      mem.perform p callers frame task = (mem, .fail .missingValue { frame with values }) := by
  obtain ⟨current, env, function, tasks, values⟩ := frame
  cases task with
  | unary | member =>
    cases h
    match values, hcount with
    | [], _ => exact ⟨[], .refl _, rfl⟩
  | binary | index =>
    cases h
    match values, hcount with
    | [], _ => exact ⟨[], .refl _, rfl⟩
    | [v], _ => exact ⟨[], List.nil_subset _, rfl⟩
  | array | tuple | object =>
    cases h
    refine ⟨values, .refl _, ?_⟩
    simp only [perform, Effect.withValues, if_neg (Nat.not_le.2 hcount)]
  | _ => cases h

/-- An operator lacks operands, or takes them and has a result that holds no functions but theirs,
whatever is true of them. -/
theorem operator_cases (h : task.operands? = some count) :
    (∃ values ⊆ frame.values,
      mem.perform p callers frame task = (mem, .fail .missingValue { frame with values })) ∨
    ∃ values result, values ⊆ frame.values ∧
      (∀ P, (∀ v ∈ frame.values, v.Every P) → Except.Every P result) ∧
      mem.perform p callers frame task = (mem, .result { frame with values } result) := by
  rcases Nat.lt_or_ge frame.values.length count with hcount | hcount
  · exact .inl (perform_operator_of_lt p mem callers frame h hcount)
  · refine .inr ⟨_, _, List.drop_subset _ _, fun P hvalues => ?_,
      perform_operator p mem callers frame h hcount⟩
    refine Task.every_operate h ?_ fun v hv => ?_
    · rw [List.length_reverse, List.length_take_of_le hcount]
    · exact hvalues v (List.mem_of_mem_take (List.mem_reverse.1 hv))

/-! ### Bindings -/

/-- A declaration lacks its value, or takes it off the stack. -/
theorem declare_cases (name : String) :
    mem.perform p callers frame (.declare name) = (mem, .fail .missingValue frame) ∨
    ∃ v values, frame.values = v :: values ∧ mem.perform p callers frame (.declare name) =
      ({ mem with store := mem.store.declare frame.environment name v },
        .stay { frame with values }) := by
  simp only [perform]
  split
  · rename_i v values heq
    exact .inr ⟨v, values, heq, rfl⟩
  · exact .inl rfl

/-- An assignment fails, or changes a variable and leaves the value on the stack. -/
theorem assign_cases (name : String) :
    (∃ fault, mem.perform p callers frame (.assign name) = (mem, .fail fault frame)) ∨
    ∃ v id, v ∈ frame.values ∧ mem.store.variableScope? frame.environment name = some id ∧
      mem.perform p callers frame (.assign name) =
        ({ mem with store := mem.store.declareIn id name v }, .stay frame) := by
  simp only [perform]
  split
  · rename_i v values heq
    split
    · rename_i id hid
      exact .inr ⟨v, id, heq ▸ List.mem_cons_self, hid, rfl⟩
    · exact .inl ⟨_, rfl⟩
  · exact .inl ⟨_, rfl⟩

/-! ### Calls -/

/-- A call fails, or enters a function of the program in a new scope. -/
theorem call_cases (count : Nat) :
    (∃ fault, ∃ values ⊆ frame.values,
      mem.call p callers frame count = (mem, .fail fault { frame with values })) ∨
    ∃ closure values site params body current,
      frame.values.drop count = .function closure :: values ∧
      p.node? closure.node = some (.expr (.function site params body)) ∧
      mem.call p callers frame count =
        ({ mem with
            store := bindParams (mem.store.extend closure.environment .variable).2
              (mem.store.extend closure.environment .variable).1 params
              (frame.values.take count).reverse },
          .enter { frame with values }
            (.ofBody current (mem.store.extend closure.environment .variable).1
              (some closure.node) body)) := by
  unfold call
  split
  · have hdrop : frame.values.drop count ⊆ frame.values := List.drop_subset _ _
    split
    · rename_i closure values hvalues
      rw [hvalues] at hdrop
      have hrest := (List.cons_subset.1 hdrop).2
      unfold callClosure
      split
      · rename_i site params body hnode
        split
        · exact .inl ⟨_, _, hrest, rfl⟩
        · exact .inr ⟨closure, values, site, params, body, _, hvalues, hnode, rfl⟩
      · exact .inl ⟨_, _, hrest, rfl⟩
    · rename_i callee values hvalues
      rw [hvalues] at hdrop
      exact .inl ⟨_, _, (List.cons_subset.1 hdrop).2, rfl⟩
    · exact .inl ⟨_, _, List.nil_subset _, rfl⟩
  · exact .inl ⟨_, _, .refl _, rfl⟩

end Memory

end LWorkbench
