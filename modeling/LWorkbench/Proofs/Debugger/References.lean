import LWorkbench.Proofs.Debugger.Holdings
import Mathlib.Data.List.Forall2

/-!
# References

Scopes and parts are told with references: the handles by which a client can look into them. The
references of a session count from one, over all answers and all programs that are started. What a
reference denotes never changes, although a scope that it denotes may come to hold something else:
its number is not given to another scope.

## Main definitions

* `Handles.Issues` — the handles before and after references are handed out
* `Handles.Shows` — a part that is told shows an entity
* `Answer.references`, `Transcript.references` — the references in answers

## Main results

* `Variable.issues_list`, `Debuggee.issues_groups` — what is told about a list of parts or scopes
* `Session.issues_of_handle`, `Session.issues_of_handleAll` — the references of a turn and of a
  conversation
* `Session.references_fresh_stable_faithful` — which references there are, what they denote, and
  what they show
-/

namespace LWorkbench

/-! ### Issuing handles -/

/-- The references among numbers, where zero stands for none. -/
def issued (references : List Nat) : List Nat := references.filter (· ≠ 0)

/-- What becomes of handles when references are handed out. The references are the next numbers,
and what was denoted before still is. -/
structure Handles.Issues {α : Type} (handles : Handles α) (references : List Nat)
    (handles' : Handles α) : Prop where
  size : handles'.size = handles.size + references.length
  references : references = List.range' (handles.size + 1) references.length
  kept : ∀ handle entity, handles.get? handle = some entity → handles'.get? handle = some entity

namespace Handles.Issues

variable {α : Type} {handles handles' handles'' : Handles α} {references references' : List Nat}

theorem refl (handles : Handles α) : handles.Issues [] handles := ⟨rfl, rfl, fun _ _ h => h⟩

theorem append (h : handles.Issues references handles')
    (h' : handles'.Issues references' handles'') :
    handles.Issues (references ++ references') handles'' := by
  refine ⟨?_, ?_, fun handle entity hdenotes => h'.kept handle entity (h.kept handle entity hdenotes)⟩
  · rw [h'.size, h.size, List.length_append, Nat.add_assoc]
  · rw [List.length_append, ← List.range'_append_1, ← h.references, Nat.add_right_comm, ← h.size,
      ← h'.references]

theorem create (handles : Handles α) (entity : α) :
    handles.Issues [(handles.create entity).1] (handles.create entity).2 :=
  ⟨size_create handles entity, rfl, fun _ _ => get?_create_of_get?⟩

theorem ne_zero (h : handles.Issues references handles') :
    ∀ reference ∈ references, reference ≠ 0 := by
  intro reference hmem hzero
  rw [h.references, List.mem_range'_1] at hmem
  omega

theorem eq_range' (h : empty.Issues references handles') :
    references = List.range' 1 handles'.size := by
  rw [h.size, size_empty, Nat.zero_add]
  exact h.references

/-- No reference that is handed out is zero. -/
theorem nonzero (h : handles.Issues references handles') :
    handles.Issues (issued references) handles' := by
  have hall : issued references = references :=
    List.filter_eq_self.2 fun reference hmem => decide_eq_true (h.ne_zero reference hmem)
  rw [hall]
  exact h

end Handles.Issues

/-- A part that a client is told shows an entity with a name. Its reference is zero if there is
nothing to look into, and otherwise denotes the entity. -/
structure Handles.Shows (handles : Handles Inspectable) (child : String × Inspectable)
    (part : Variable) : Prop where
  name : part.name = child.1
  value : part.value = child.2.render
  reference_ne_zero_iff : part.reference ≠ 0 ↔ child.2.isExpandable = true
  denotes : part.reference ≠ 0 → handles.get? part.reference = some child.2

theorem Handles.Shows.mono {handles handles' : Handles Inspectable} {references : List Nat}
    {child : String × Inspectable} {part : Variable} (h : handles.Shows child part)
    (hissues : handles.Issues references handles') : handles'.Shows child part :=
  ⟨h.name, h.value, h.reference_ne_zero_iff, fun hne => hissues.kept _ _ (h.denotes hne)⟩

/-- An entity that is offered gets a handle if there is something to look into. -/
theorem Handles.issues_offer (handles : Handles Inspectable) (entity : Inspectable) :
    handles.Issues (issued [(handles.offer entity).1]) (handles.offer entity).2 ∧
      ∀ name, (handles.offer entity).2.Shows (name, entity)
        ⟨name, entity.render, (handles.offer entity).1⟩ := by
  rw [offer]
  cases hexpandable : entity.isExpandable with
  | true =>
    refine ⟨.create handles entity, fun name => ⟨rfl, rfl, ?_, fun _ => handles.get?_create_self entity⟩⟩
    exact ⟨fun _ => hexpandable, fun _ => Nat.succ_ne_zero _⟩
  | false =>
    refine ⟨.refl handles, fun name => ⟨rfl, rfl, ?_, fun hne => absurd rfl hne⟩⟩
    simp [hexpandable]

/-- Parts that are told show what they are made from, and have the next handles. -/
theorem Variable.issues_list (handles : Handles Inspectable)
    (children : List (String × Inspectable)) :
    handles.Issues (issued ((Variable.list handles children).1.map (·.reference)))
        (Variable.list handles children).2 ∧
      List.Forall₂ (Variable.list handles children).2.Shows children
        (Variable.list handles children).1 := by
  induction children generalizing handles with
  | nil => exact ⟨.refl handles, .nil⟩
  | cons child children ih =>
    obtain ⟨name, entity⟩ := child
    obtain ⟨hfirst, hshows⟩ := handles.issues_offer entity
    obtain ⟨hrest, hothers⟩ := ih (handles.offer entity).2
    refine ⟨?_, .cons ((hshows name).mono hrest) hothers⟩
    have happend := hfirst.append hrest
    rw [issued, issued, ← List.filter_append] at happend
    exact happend

/-- A scope that a client is told has a handle, which denotes it. -/
def Handles.ShowsScope (handles : Handles Inspectable) (id : ScopeId) (group : ScopeGroup) : Prop :=
  group.reference ≠ 0 ∧ handles.get? group.reference = some (.scope id)

theorem Handles.ShowsScope.mono {handles handles' : Handles Inspectable} {references : List Nat}
    {id : ScopeId} {group : ScopeGroup} (h : handles.ShowsScope id group)
    (hissues : handles.Issues references handles') : handles'.ShowsScope id group :=
  ⟨h.1, hissues.kept _ _ h.2⟩

/-- Scopes that are told have the next handles, each its own. -/
theorem Debuggee.issues_groups (handles : Handles Inspectable) (ids : List ScopeId) :
    handles.Issues ((groups handles ids).1.map (·.reference)) (groups handles ids).2 ∧
      List.Forall₂ (groups handles ids).2.ShowsScope ids (groups handles ids).1 := by
  induction ids generalizing handles with
  | nil => exact ⟨.refl handles, .nil⟩
  | cons id ids ih =>
    obtain ⟨hrest, hothers⟩ := ih (handles.create (.scope id)).2
    have hfirst : (handles.create (.scope id)).2.ShowsScope id ⟨"Locals", handles.size + 1⟩ :=
      ⟨Nat.succ_ne_zero _, handles.get?_create_self _⟩
    exact ⟨(Handles.Issues.create handles (.scope id)).append hrest,
      .cons (hfirst.mono hrest) hothers⟩

/-- The elements of an array, a tuple or an object with their names; none for other values. -/
def Value.elements? : Value → Option (List (String × Value))
  | array items | tuple items => some (items.zipIdx.map fun (v, i) => (toString i, v))
  | object properties => some properties
  | _ => none

/-- The parts of a value with elements are its elements, whatever the scopes hold. -/
theorem Inspectable.children_of_elements? {v : Value} {elements : List (String × Value)}
    (h : v.elements? = some elements) (store : Store Value) :
    (value v).children store = elements.map fun e => (e.1, value e.2) := by
  cases v with
  | array items | tuple items =>
    cases h
    rw [children, numbered, List.map_map]
    rfl
  | object properties =>
    cases h
    rfl
  | undefined | null | boolean | number | string | function => cases h

/-! ### Answers with references -/

/-- The scopes of a frame, innermost first; none for an unknown frame. -/
def Debuggee.frameScopes (d : Debuggee) (frame : Nat) : List ScopeId :=
  ((d.machine.frames[frame]?).map fun frame => frame.environment.scopeIds).getD []

/-- The parts of what a handle denotes; none for an unknown handle. -/
def Debuggee.childrenOf (d : Debuggee) (handle : Int) : List (String × Inspectable) :=
  ((d.handles.get? handle).map fun entity => entity.children d.machine.memory.store).getD []

namespace Debuggee

theorem scopes_eq (d : Debuggee) (frame : Nat) :
    d.scopes frame = ({ d with handles := (groups d.handles (d.frameScopes frame)).2 },
      (groups d.handles (d.frameScopes frame)).1) := by
  rw [scopes, frameScopes]
  cases d.machine.frames[frame]? <;> rfl

theorem expand_eq (d : Debuggee) (handle : Int) :
    d.expand handle = ({ d with handles := (Variable.list d.handles (d.childrenOf handle)).2 },
      (Variable.list d.handles (d.childrenOf handle)).1) := by
  rw [expand, childrenOf]
  cases d.handles.get? handle <;> rfl

end Debuggee

/-- The references in an answer, in their order. -/
def Answer.references : Answer → List Nat
  | .success (some (.scopes groups)) => issued (groups.map (·.reference))
  | .success (some (.parts list)) => issued (list.map (·.reference))
  | _ => []

theorem Answer.references_eq_nil {answer : Answer}
    (hscopes : ∀ groups, answer ≠ .success (some (.scopes groups)))
    (hparts : ∀ list, answer ≠ .success (some (.parts list))) : answer.references = [] := by
  unfold references
  split
  · exact absurd rfl (hscopes _)
  · exact absurd rfl (hparts _)
  · rfl

/-- The references in all answers of a session, in their order. -/
def Transcript.references (turns : Transcript) : List Nat :=
  turns.flatMap fun turn => turn.2.answer.references

namespace Session

variable {s s' t t' u : Session} {request : Request} {reply : Reply} {fuel : Nat}
  {read : String → Except ReadError String} {calls : List Call} {turns : Transcript}

theorem handle?_scopes {frame : Nat} (hkind : request.kind = .scopes)
    (hframe : request.frameId? = some frame) : s.handle? read fuel request =
      some ({ s with debuggee := (s.debuggee.scopes frame).1 },
        .success (some (.scopes (s.debuggee.scopes frame).2)) []) := by
  rw [handle?_eq_obey? (by rw [hkind]; nofun), hkind, obey?, scopes, hframe]

theorem handle?_expand {handle : Int} (hkind : request.kind = .expand)
    (hhandle : request.variablesReference? = some handle) : s.handle? read fuel request =
      some ({ s with debuggee := (s.debuggee.expand handle).1 },
        .success (some (.parts (s.debuggee.expand handle).2)) []) := by
  rw [handle?_eq_obey? (by rw [hkind]; nofun), hkind, obey?, expand, hhandle]

/-! ### The references of a session -/

/-- Running hands out no handles. -/
theorem OnlyRuns.issues (h : s.OnlyRuns s' reply) :
    s.debuggee.handles.Issues reply.answer.references s'.debuggee.handles := by
  have hnone : reply.answer.references = [] := by
    refine Answer.references_eq_nil (fun groups hanswer => ?_) fun list hanswer => ?_ <;>
    cases h.body _ hanswer
  rw [h.handles, hnone]
  exact .refl _

/-- Every turn hands out the next handles. -/
theorem issues_of_handle (h : s.handle? read fuel request = some (s', reply)) :
    s.debuggee.handles.Issues reply.answer.references s'.debuggee.handles := by
  cases course_of_handle h with
  | launched _ hlaunch => exact (onlyRuns_of_launch hlaunch).issues
  | resumed mode _ hresume => exact (onlyRuns_of_resume hresume).issues
  | listed frame _ hsession hanswer =>
    rw [hsession, hanswer, Debuggee.scopes_eq]
    exact (Debuggee.issues_groups _ _).1.nonzero
  | expanded handle _ hsession hanswer =>
    rw [hsession, hanswer, Debuggee.expand_eq]
    exact (Variable.issues_list _ _).1
  | aside _ hhandles _ hscopes hparts =>
    rw [hhandles, Answer.references_eq_nil hscopes hparts]
    exact .refl _

/-- A conversation hands out the next handles. -/
theorem issues_of_handleAll (h : s.handleAll? calls = some (t, turns)) :
    s.debuggee.handles.Issues turns.references t.debuggee.handles := by
  induction calls generalizing s turns with
  | nil =>
    cases h
    exact .refl _
  | cons call calls ih =>
    obtain ⟨s', reply, rest, hfirst, hrest, rfl⟩ := handleAll?_cons_eq_some_iff.1 h
    exact (issues_of_handle hfirst).append (ih hrest)

/-- The answer about the scopes of a frame. -/
theorem scopes_of_handle {frame : Nat} (h : s.handle? read fuel request = some (s', reply))
    (hkind : request.kind = .scopes) (hframe : request.frameId? = some frame) :
    ∃ groups, reply.answer = .success (some (.scopes groups)) ∧
      List.Forall₂ s'.debuggee.handles.ShowsScope (s.debuggee.frameScopes frame) groups := by
  rw [handle?_scopes hkind hframe, Debuggee.scopes_eq] at h
  cases h
  exact ⟨_, rfl, (Debuggee.issues_groups _ _).2⟩

/-- The answer about the parts of what a handle denotes. -/
theorem parts_of_handle {handle : Int} (h : s.handle? read fuel request = some (s', reply))
    (hkind : request.kind = .expand) (hhandle : request.variablesReference? = some handle) :
    ∃ list, reply.answer = .success (some (.parts list)) ∧
      List.Forall₂ s'.debuggee.handles.Shows (s.debuggee.childrenOf handle) list := by
  rw [handle?_expand hkind hhandle, Debuggee.expand_eq] at h
  cases h
  exact ⟨_, rfl, (Variable.issues_list _ _).2⟩

/-- An unknown handle has no parts, and nothing is handed out for it. -/
theorem parts_of_unknown {handle : Int} (h : s.handle? read fuel request = some (s', reply))
    (hkind : request.kind = .expand) (hhandle : request.variablesReference? = some handle)
    (hunknown : s.debuggee.handles.get? handle = none) :
    reply.answer = .success (some (.parts [])) ∧ s' = s := by
  rw [handle?_expand hkind hhandle, Debuggee.expand_eq, Debuggee.childrenOf, hunknown] at h
  cases h
  exact ⟨rfl, rfl⟩

/-- The references in the answers of a conversation, whatever programs are started in it, are the
numbers from one on in their order, and what a handle denotes it denotes from then on. A scope that a
handle denotes has been made, and is among the scopes ever after. The scopes of a frame get references
that denote them. What a handle denotes is told by its parts at that moment, each with a reference
just if there is something to look into, which denotes the part: for an array, a tuple or an object
these are its elements, and for a scope what it holds at that moment. A number that is no handle has
no parts, and no handle is made for it. -/
theorem references_fresh_stable_faithful {configured : Bool} {first second third : List Call}
    {turns₁ turns₂ turns₃ : Transcript}
    (hfirst : (start configured).handleAll? first = some (s, turns₁))
    (hsecond : s.handleAll? second = some (t, turns₂))
    (hrequest : t.handle? read fuel request = some (t', reply))
    (hthird : t'.handleAll? third = some (u, turns₃)) :
    Transcript.references (turns₁ ++ turns₂ ++ (request, reply) :: turns₃) =
      List.range' 1 u.debuggee.handles.size ∧
    (∀ handle entity, s.debuggee.handles.get? handle = some entity →
      u.debuggee.handles.get? handle = some entity) ∧
    (∀ handle id, s.debuggee.handles.get? handle = some (.scope id) → id < s.debuggee.size) ∧
    s.debuggee.size ≤ t.debuggee.size ∧
    (request.kind = .scopes → ∀ frame, request.frameId? = some frame →
      ∃ groups, reply.answer = .success (some (.scopes groups)) ∧
        List.Forall₂ u.debuggee.handles.ShowsScope (t.debuggee.frameScopes frame) groups) ∧
    (request.kind = .expand → ∀ handle, request.variablesReference? = some handle →
      ∃ list, reply.answer = .success (some (.parts list)) ∧
        (∀ entity, s.debuggee.handles.get? handle = some entity →
          List.Forall₂ u.debuggee.handles.Shows
            (entity.children t.debuggee.machine.memory.store) list) ∧
        (∀ v elements, s.debuggee.handles.get? handle = some (.value v) →
          v.elements? = some elements →
          List.Forall₂ (fun e => u.debuggee.handles.Shows (e.1, .value e.2)) elements list) ∧
        (∀ id, s.debuggee.handles.get? handle = some (.scope id) →
          List.Forall₂ (fun e => u.debuggee.handles.Shows (e.1, .value e.2))
            (t.debuggee.machine.memory.store.scope id).entries list) ∧
        (¬ (1 ≤ handle ∧ handle ≤ t.debuggee.handles.size) →
          list = [] ∧ t'.debuggee.handles = t.debuggee.handles)) := by
  have hissues₁ := issues_of_handleAll hfirst
  have hissues₂ := issues_of_handleAll hsecond
  have hissues := issues_of_handle hrequest
  have hissues₃ := issues_of_handleAll hthird
  obtain ⟨hwhole, -⟩ := whole_of_handleAll Debuggee.whole_fresh hfirst
  refine ⟨?_, ?_, fun handle id hdenotes => hwhole.handles handle _ hdenotes,
    (whole_of_handleAll hwhole hsecond).2, ?_, ?_⟩
  · -- The parts of the conversation hand out their handles one after the other.
    have hall := (hissues₁.append hissues₂).append (hissues.append hissues₃)
    rw [← hall.eq_range']
    simp only [Transcript.references, List.flatMap_append, List.flatMap_cons]
  · intro handle entity hdenotes
    exact hissues₃.kept _ _ (hissues.kept _ _ (hissues₂.kept _ _ hdenotes))
  · intro hkind frame hframe
    obtain ⟨groups, hanswer, hshows⟩ := scopes_of_handle hrequest hkind hframe
    exact ⟨groups, hanswer, hshows.imp fun _ _ h => h.mono hissues₃⟩
  · intro hkind handle hhandle
    obtain ⟨list, hanswer, hshows⟩ := parts_of_handle hrequest hkind hhandle
    have hparts : ∀ entity, s.debuggee.handles.get? handle = some entity →
        List.Forall₂ u.debuggee.handles.Shows
          (entity.children t.debuggee.machine.memory.store) list := by
      intro entity hdenotes
      -- The handle was known before the second part, and still denotes the same entity.
      rw [Debuggee.childrenOf, hissues₂.kept _ _ hdenotes] at hshows
      exact hshows.imp fun _ _ h => h.mono hissues₃
    refine ⟨list, hanswer, hparts, fun v elements hdenotes helements => ?_, fun id hdenotes => ?_,
      fun hunknown => ?_⟩
    · have hshows := hparts _ hdenotes
      rwa [Inspectable.children_of_elements? helements, List.forall₂_map_left_iff] at hshows
    · have hshows := hparts _ hdenotes
      rwa [Inspectable.children, List.forall₂_map_left_iff] at hshows
    · rw [← Handles.get?_isSome_iff, Option.not_isSome_iff_eq_none] at hunknown
      obtain ⟨hempty, rfl⟩ := parts_of_unknown hrequest hkind hhandle hunknown
      rw [hempty] at hanswer
      cases hanswer
      exact ⟨rfl, rfl⟩

/-- A program that is stopped behind the declaration of an array with an array inside. -/
def launchOfArray : Call where
  request := ⟨1, "launch", .object [("stopOnEntry", .bool true)]⟩
  read _ := .ok "var a=[[]];\x7b\x7d"
  fuel := 1

/-- A call that finds no files and needs no steps. -/
def plainCall (seq : Int) (command : String) (arguments : Json) : Call :=
  ⟨⟨seq, command, arguments⟩, fun _ => .error .notFound, 0⟩

theorem launch_launchOfArray :
    ((start true).launch? launchOfArray.read 1 launchOfArray.request).any (fun r =>
      match r.1.debuggee.frameScopes 0, (r.1.debuggee.machine.memory.store.scope 1).entries with
      | [1], [("a", .array [.array []])] => true
      | _, _ => false) = true := by
  decide +kernel

/-- A client that looks at the scope gets one handle for it, and one for the array in it. -/
theorem exists_handle_of_array : ∃ (s : Session) (turns : Transcript),
    (start true).handleAll? [launchOfArray, plainCall 2 "scopes" (.object [("frameId", .int 0)]),
      plainCall 3 "variables" (.object [("variablesReference", .int 1)])] = some (s, turns) ∧
    s.debuggee.handles = ⟨#[.scope 1, .value (.array [.array []])]⟩ := by
  obtain ⟨⟨s, reply⟩, hlaunch, hleft⟩ := (Option.any_eq_true _ _).1 launch_launchOfArray
  obtain ⟨hscopes, hentries⟩ : s.debuggee.frameScopes 0 = [1] ∧
      (s.debuggee.machine.memory.store.scope 1).entries = [("a", .array [.array []])] := by
    split at hleft
    · exact ⟨‹_›, ‹_›⟩
    · cases hleft
  have hfresh : s.debuggee.handles = .empty := (onlyRuns_of_launch hlaunch).handles
  have hlocals : (s.debuggee.scopes 0).1 = { s.debuggee with handles := ⟨#[.scope 1]⟩ } := by
    rw [Debuggee.scopes_eq, hscopes, hfresh]
    rfl
  have hparts : ((s.debuggee.scopes 0).1.expand 1).1.handles =
      ⟨#[.scope 1, .value (.array [.array []])]⟩ := by
    rw [hlocals, Debuggee.expand_eq]
    have hchildren : Debuggee.childrenOf { s.debuggee with handles := ⟨#[.scope 1]⟩ } 1 =
        [("a", .value (.array [.array []]))] := by
      change (Inspectable.scope 1).children _ = _
      rw [Inspectable.children, hentries]
      rfl
    rw [hchildren]
    rfl
  exact ⟨_, _, handleAll?_cons_eq_some_iff.2 ⟨s, reply, _, hlaunch,
    handleAll?_cons_eq_some_iff.2 ⟨_, _, _, handle?_scopes rfl rfl,
      handleAll?_singleton_eq_some_iff.2 ⟨_, handle?_expand rfl rfl, rfl⟩, rfl⟩, rfl⟩, hparts⟩

/-- The array inside has a handle of its own, also when it is asked for after a step. -/
theorem references_fresh_stable_faithful_array : ∃ (s t t' : Session) (turns₁ turns₂ : Transcript)
    (reply : Reply) (list : List Variable),
    (start true).handleAll? [launchOfArray, plainCall 2 "scopes" (.object [("frameId", .int 0)]),
      plainCall 3 "variables" (.object [("variablesReference", .int 1)])] = some (s, turns₁) ∧
    s.handleAll? [plainCall 4 "next" .null] = some (t, turns₂) ∧
    t.handle? (fun _ => .error .notFound) 0
      ⟨5, "variables", .object [("variablesReference", .int 2)]⟩ = some (t', reply) ∧
    reply.answer = .success (some (.parts list)) ∧
    List.Forall₂ (fun e => t'.debuggee.handles.Shows (e.1, .value e.2)) [("0", .array [])] list ∧
    Transcript.references (turns₁ ++ turns₂ ++
      [(⟨5, "variables", .object [("variablesReference", .int 2)]⟩, reply)]) = [1, 2, 3] := by
  obtain ⟨s, turns, hall, hhandles⟩ := exists_handle_of_array
  obtain ⟨t, stepped, hnext⟩ : ∃ t reply,
      s.handle? (fun _ => .error .notFound) 0 ⟨4, "next", .null⟩ = some (t, reply) := by
    change ∃ t reply, s.resume? 0 .oneStep = some (t, reply)
    cases hloaded : s.debuggee.loaded with
    | none => exact ⟨_, _, resume?_of_none hloaded⟩
    | some source => exact ⟨_, _, resume?_of_loaded (by rw [hloaded]; rfl)⟩
  have hkept : t.debuggee.handles = s.debuggee.handles :=
    (onlyRuns_of_resume (show s.resume? 0 .oneStep = some (t, stepped) from hnext)).handles
  have hstep : s.handleAll? [plainCall 4 "next" .null] = some (t, [(⟨4, "next", .null⟩, stepped)]) :=
    handleAll?_singleton_eq_some_iff.2 ⟨stepped, hnext, rfl⟩
  have hlast : t.handle? (fun _ => .error .notFound) 0
      ⟨5, "variables", .object [("variablesReference", .int 2)]⟩ =
      some ({ t with debuggee := (t.debuggee.expand 2).1 }, _) := handle?_expand rfl rfl
  have hnothing : ({ t with debuggee := (t.debuggee.expand 2).1 } : Session).handleAll? [] =
      some (_, []) := rfl
  obtain ⟨hreferences, -, -, -, -, hparts⟩ :=
    references_fresh_stable_faithful hall hstep hlast hnothing
  obtain ⟨list, hanswer, -, helements, -⟩ := hparts rfl 2 rfl
  have hsize : (t.debuggee.expand 2).1.handles.size = 3 := by
    rw [Debuggee.expand_eq, Debuggee.childrenOf, hkept, hhandles]
    rfl
  refine ⟨s, t, _, turns, _, _, list, hall, hstep, hlast, hanswer,
    helements (.array [.array []]) _ ?_ rfl, ?_⟩
  · rw [hhandles]
    rfl
  · rw [hreferences]
    change List.range' 1 (t.debuggee.expand 2).1.handles.size = _
    rw [hsize]
    rfl

end Session

end LWorkbench
