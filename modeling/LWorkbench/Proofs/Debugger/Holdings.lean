import LWorkbench.Proofs.Debugger.Conversations
import LWorkbench.Proofs.Machine.Made

/-!
# What a debuggee holds

A client keeps its handles while programs come and go, and a handle may denote a scope of a program
that is long gone. Its number is never given to another scope: a debuggee gives up no scope when it
runs a program or loads another one, and neither its machine nor its handles hold a number of a scope
that is still to be made.

## Main definitions

* `Inspectable.Below` — only scopes with lower numbers are held
* `Debuggee.Whole` — only scopes that have been made are held

## Main results

* `Debuggee.Whole.firstRun`, `Debuggee.Whole.goOn`, `Debuggee.Whole.scopes`,
  `Debuggee.Whole.expand` — what starting, going on and looking keep
* `Session.whole_of_handle`, `Session.whole_of_handleAll` — what a turn and a conversation keep
-/

namespace LWorkbench

/-- What is denoted holds only scopes with lower numbers. -/
def Inspectable.Below (n : Nat) : Inspectable → Prop
  | .scope id => id < n
  | .environment env => env.Below n
  | .value v => v.Every (Closure.Below n)

theorem Inspectable.Below.mono {n m : Nat} {entity : Inspectable} (h : entity.Below n)
    (hle : n ≤ m) : entity.Below m := by
  cases entity with
  | scope id => exact Nat.lt_of_lt_of_le h hle
  | environment env => exact Environment.Below.mono h hle
  | value v => exact Value.Every.below_mono h hle

theorem Inspectable.below_numbered {α : Type} {n : Nat} {entity : α → Inspectable} {items : List α}
    (h : ∀ x ∈ items, (entity x).Below n) : ∀ child ∈ numbered entity items, child.2.Below n := by
  intro child hchild
  obtain ⟨⟨x, i⟩, hx, rfl⟩ := List.mem_map.1 hchild
  exact h x (List.fst_mem_of_mem_zipIdx hx)

/-- The parts of what holds only scopes that have been made do so, too. -/
theorem Inspectable.Below.children {mem : Memory} {entity : Inspectable} (hmem : mem.Whole)
    (h : entity.Below mem.size) : ∀ child ∈ entity.children mem.store, child.2.Below mem.size := by
  cases entity with
  | scope id =>
    intro child hchild
    obtain ⟨e, he, rfl⟩ := List.mem_map.1 hchild
    exact hmem id e he
  | environment env => exact below_numbered h
  | value v =>
    cases h with
    | array h | tuple h => exact below_numbered h
    | object h =>
      intro child hchild
      obtain ⟨q, hq, rfl⟩ := List.mem_map.1 hchild
      exact h q hq
    | function h => exact List.forall_mem_singleton.2 h
    | undefined | null | boolean | number | string => exact List.forall_mem_nil _

/-! ### New handles -/

section

variable {handle : Int} {entity other : Inspectable} {handles : Handles Inspectable}

/-- A handle denotes what it denoted before, or is the new one. -/
theorem Handles.get?_create_cases (h : (handles.create entity).2.get? handle = some other) :
    handles.get? handle = some other ∨ other = entity := by
  unfold get? create at h
  unfold get?
  split at h
  · cases h
  · rename_i hpos
    rw [Array.getElem?_push] at h
    split at h
    · exact .inr (Option.some.inj h).symm
    · exact .inl (by rw [if_neg hpos]; exact h)

theorem Handles.get?_offer_cases (h : (handles.offer entity).2.get? handle = some other) :
    handles.get? handle = some other ∨ other = entity := by
  unfold offer at h
  split at h
  · exact get?_create_cases h
  · exact .inl h

theorem Debuggee.get?_groups_cases {ids : List ScopeId}
    (h : (groups handles ids).2.get? handle = some other) :
    handles.get? handle = some other ∨ ∃ id ∈ ids, other = .scope id := by
  induction ids generalizing handles with
  | nil => exact .inl h
  | cons id ids ih =>
    obtain hold | ⟨id', hid', heq⟩ := ih h
    · obtain hold | rfl := Handles.get?_create_cases hold
      · exact .inl hold
      · exact .inr ⟨id, List.mem_cons_self, rfl⟩
    · exact .inr ⟨id', List.mem_cons_of_mem _ hid', heq⟩

theorem Variable.get?_list_cases {children : List (String × Inspectable)}
    (h : (Variable.list handles children).2.get? handle = some other) :
    handles.get? handle = some other ∨ ∃ child ∈ children, other = child.2 := by
  induction children generalizing handles with
  | nil => exact .inl h
  | cons child children ih =>
    obtain hold | ⟨child', hchild', heq⟩ := ih h
    · obtain hold | rfl := Handles.get?_offer_cases hold
      · exact .inl hold
      · exact .inr ⟨child, List.mem_cons_self, rfl⟩
    · exact .inr ⟨child', List.mem_cons_of_mem _ hchild', heq⟩

end

/-! ### Debuggees -/

namespace Debuggee

/-- The number of scopes made so far. -/
def size (d : Debuggee) : Nat := d.machine.memory.size

/-- The machine and the handles hold only scopes that have been made. -/
structure Whole (d : Debuggee) : Prop where
  machine : d.machine.Whole
  handles : ∀ handle entity, d.handles.get? handle = some entity → entity.Below d.size

variable {d d' : Debuggee}

theorem size_le_of_machine_eq (h : d'.machine = d.machine) : d.size ≤ d'.size :=
  Nat.le_of_eq (congrArg (fun m => m.memory.size) h.symm)

theorem whole_fresh : fresh.Whole := by
  have hempty : (⟨.empty, 0⟩ : Memory).Whole := by
    intro id e he
    cases he
  refine ⟨(Machine.whole_start hempty).1, fun handle entity h => ?_⟩
  -- There is no handle yet.
  have hsome := (Handles.get?_isSome_iff _ _).1 (Option.isSome_iff_exists.2 ⟨entity, h⟩)
  change 1 ≤ handle ∧ handle ≤ (0 : Nat) at hsome
  omega

/-- Another machine that gives up no scope. -/
theorem Whole.withMachine (h : d.Whole) {m : Machine} (hm : m.Whole)
    (hsize : d.size ≤ m.memory.size) : ({ d with machine := m } : Debuggee).Whole :=
  ⟨hm, fun handle entity hdenotes => (h.handles handle entity hdenotes).mono hsize⟩

theorem Whole.load (h : d.Whole) (source : SourceFile) (p : Program) :
    (d.load source p).Whole ∧ d.size ≤ (d.load source p).size := by
  -- The new machine has the memory of the old one, so that old handles still denote its scopes.
  obtain ⟨hstart, hsize⟩ := Machine.whole_start h.machine.memory
  obtain ⟨hload, hsame⟩ := hstart.load p
  have hle : d.size ≤ (d.load source p).size := by
    change d.machine.memory.size ≤ ((Machine.start d.machine.memory).load p).memory.size
    rw [hsame, hsize]
    exact Nat.le_succ _
  exact ⟨⟨hload, fun handle entity hdenotes => (h.handles handle entity hdenotes).mono hle⟩, hle⟩

theorem Whole.step (h : d.Whole) : d.step.1.Whole ∧ d.size ≤ d.step.1.size := by
  obtain ⟨hwhole, hsize⟩ := h.machine.step
  exact ⟨h.withMachine hwhole hsize, hsize⟩

theorem Whole.runFor {fuel : Nat} {r : Debuggee × StepOutcome} (h : d.Whole)
    (hrun : d.runFor fuel = some r) : r.1.Whole ∧ d.size ≤ r.1.size := by
  obtain ⟨⟨m, outcome⟩, hmachine, rfl⟩ := Option.map_eq_some_iff.1 hrun
  obtain ⟨hwhole, hsize⟩ := h.machine.runFor hmachine
  exact ⟨h.withMachine hwhole hsize, hsize⟩

theorem Whole.goOn {fuel : Nat} {mode : ResumeMode} {r : Debuggee × StepOutcome} (h : d.Whole)
    (hrun : d.goOn? fuel mode = some r) : r.1.Whole ∧ d.size ≤ r.1.size := by
  cases mode with
  | toEnd => exact h.runFor hrun
  | oneStep =>
    cases hrun
    exact h.step

theorem Whole.firstRun {fuel : Nat} {arguments : LaunchArguments}
    {r : Debuggee × StepOutcome × List Event} (h : d.Whole)
    (hrun : Session.firstRun? fuel arguments d = some r) : r.1.Whole ∧ d.size ≤ r.1.size := by
  unfold Session.firstRun? at hrun
  split at hrun
  · split at hrun
    · cases hrun
    · -- After a fault the machine runs once more, only to finish.
      rename_i d' fault hfirst
      obtain ⟨hwhole, hsize⟩ := h.runFor hfirst
      obtain ⟨second, hsecond, rfl⟩ := Option.map_eq_some_iff.1 hrun
      obtain ⟨hlast, hrest⟩ := hwhole.runFor hsecond
      exact ⟨hlast, Nat.le_trans hsize hrest⟩
    · rename_i d' outcome _ hfirst
      cases hrun
      exact h.runFor hfirst
  · split at hrun
    · cases hrun
      exact h.step
    · obtain ⟨first, hfirst, rfl⟩ := Option.map_eq_some_iff.1 hrun
      exact h.runFor hfirst

theorem Whole.scopes (h : d.Whole) (frame : Nat) : (d.scopes frame).1.Whole := by
  unfold Debuggee.scopes
  split
  · exact h
  · rename_i f hf
    refine ⟨h.machine, fun handle entity hdenotes => ?_⟩
    obtain hold | ⟨id, hid, rfl⟩ := get?_groups_cases hdenotes
    · exact h.handles handle entity hold
    · exact (h.machine.frames f (List.mem_of_getElem? hf)).environment id hid

theorem Whole.expand (h : d.Whole) (handle : Int) : (d.expand handle).1.Whole := by
  unfold Debuggee.expand
  split
  · exact h
  · rename_i entity hentity
    refine ⟨h.machine, fun handle' entity' hdenotes => ?_⟩
    obtain hold | ⟨child, hchild, rfl⟩ := Variable.get?_list_cases hdenotes
    · exact h.handles handle' entity' hold
    · exact (h.handles handle entity hentity).children h.machine.memory child hchild

end Debuggee

/-! ### Sessions -/

namespace Session

variable {s s' t : Session} {request : Request} {reply : Reply} {fuel : Nat}
  {read : String → Except ReadError String} {calls : List Call} {turns : Transcript}

theorem whole_of_launch (h : s.debuggee.Whole)
    (hlaunch : s.launch? read fuel request = some (s', reply)) :
    s'.debuggee.Whole ∧ s.debuggee.size ≤ s'.debuggee.size := by
  cases harguments : request.launchArguments? with
  | none =>
    rw [launch?_of_none harguments] at hlaunch
    cases hlaunch
    exact ⟨h, Nat.le_refl _⟩
  | some arguments =>
    cases hfetch : fetch read arguments with
    | error e =>
      rw [launch?_of_error harguments hfetch] at hlaunch
      cases hlaunch
      exact ⟨h, Nat.le_refl _⟩
    | ok found =>
      obtain ⟨source, p⟩ := found
      rw [launch?_of_ok harguments hfetch] at hlaunch
      obtain ⟨r, hrun, heq⟩ := Option.map_eq_some_iff.1 hlaunch
      cases heq
      obtain ⟨hload, hsize⟩ := h.load source p
      obtain ⟨hwhole, hrest⟩ := hload.firstRun hrun
      exact ⟨hwhole, Nat.le_trans hsize hrest⟩

theorem whole_of_resume {mode : ResumeMode} (h : s.debuggee.Whole)
    (hresume : s.resume? fuel mode = some (s', reply)) :
    s'.debuggee.Whole ∧ s.debuggee.size ≤ s'.debuggee.size := by
  cases hloaded : s.debuggee.loaded with
  | none =>
    rw [resume?_of_none hloaded] at hresume
    cases hresume
    exact ⟨h, Nat.le_refl _⟩
  | some source =>
    rw [resume?_of_loaded (by rw [hloaded]; rfl)] at hresume
    obtain ⟨r, hrun, heq⟩ := Option.map_eq_some_iff.1 hresume
    cases heq
    exact h.goOn hrun

/-- A turn gives up no scope, and after it only scopes that have been made are held. -/
theorem whole_of_handle (h : s.debuggee.Whole)
    (hhandle : s.handle? read fuel request = some (s', reply)) :
    s'.debuggee.Whole ∧ s.debuggee.size ≤ s'.debuggee.size := by
  cases course_of_handle hhandle with
  | launched _ hlaunch => exact whole_of_launch h hlaunch
  | resumed mode _ hresume => exact whole_of_resume h hresume
  | listed frame _ hsession =>
    rw [hsession]
    exact ⟨h.scopes frame, Debuggee.size_le_of_machine_eq (s.debuggee.machine_scopes frame)⟩
  | expanded handle _ hsession =>
    rw [hsession]
    exact ⟨h.expand handle, Debuggee.size_le_of_machine_eq (s.debuggee.machine_expand handle)⟩
  | aside hmachine hhandles =>
    have hle := Debuggee.size_le_of_machine_eq hmachine
    refine ⟨⟨?_, fun handle entity hdenotes => ?_⟩, hle⟩
    · rw [hmachine]
      exact h.machine
    · rw [hhandles] at hdenotes
      exact (h.handles handle entity hdenotes).mono hle

/-- The same for a conversation. -/
theorem whole_of_handleAll (h : s.debuggee.Whole) (hall : s.handleAll? calls = some (t, turns)) :
    t.debuggee.Whole ∧ s.debuggee.size ≤ t.debuggee.size := by
  induction calls generalizing s turns with
  | nil =>
    cases hall
    exact ⟨h, Nat.le_refl _⟩
  | cons call calls ih =>
    obtain ⟨s', reply, rest, hfirst, hrest, rfl⟩ := handleAll?_cons_eq_some_iff.1 hall
    obtain ⟨hwhole, hsize⟩ := whole_of_handle h hfirst
    obtain ⟨hlast, hle⟩ := ih hwhole hrest
    exact ⟨hlast, Nat.le_trans hsize hle⟩

end Session

end LWorkbench
