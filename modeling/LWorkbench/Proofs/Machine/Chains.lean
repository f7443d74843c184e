import LWorkbench.Proofs.Analysis.Definitions
import LWorkbench.Proofs.Machine.Runs

/-!
# Chains of a run and chains of analysis

Analysis walks every node with a chain of scopes, and a run works at a node with another. Both are
made for the nodes around the place, so that they go together: leaving out the scopes of labels,
which a run does not have, the scopes of the one stand for the scopes of the other, in the same
order. A run declares only what the program binds, so that a name without a definition is not found
at run time either.

## Main definitions

* `Environment.StandsFor` — a chain of a run stands for a chain of analysis
* `Program.ChainAt` — a chain of a run stands for the one with which a node is walked

## Main results

* `InPlace.uses_place` — where a name stands that a run uses
* `Machine.unresolved_fails` — a name without a definition is not defined at run time
* `Machine.chains_mirror_analysis` — when a machine pauses, its chains stand for those of analysis
-/

namespace LWorkbench

/-- The scopes of a chain of a run stand for the scopes for variables of a chain of analysis, one by
one and in the same order, and bind only what those bind in the end. -/
structure Environment.StandsFor (p : Program) (ρ : ScopeId → ScopeId) (store : Store Value)
    (env chain : Environment) : Prop where
  scopes : env.scopeIds.map ρ =
    chain.scopeIds.filter fun id => (p.annotate.store.scope id).kind == .variable
  names : ∀ id ∈ env.scopeIds, (store.scope id).names ⊆ (p.annotate.store.scope (ρ id)).names

/-- The chain of a run stands for the one chain with which analysis walks a node. -/
def Program.ChainAt (p : Program) (ρ : ScopeId → ScopeId) (store : Store Value) (env : Environment)
    (n : Node) : Prop :=
  ∃ chain, (∀ other, p.WalkedWith n other ↔ other = chain) ∧ env.StandsFor p ρ store chain

variable {p : Program} {owner : ScopeId → Option Node} {run : Nat → Progress} {n : Nat}
  {chart : Chart} {mem mem' : Memory} {frame : Frame} {callers frames : List Frame}
  {env chain : Environment} {around : List Node} {node : Node} {id : ScopeId} {r : Name}
  {x : String} {D : ScopeId → Name → Prop}

/-! ### Scopes of analysis in the end -/

namespace Program

theorem WalkedWith.unique (hp : p.Formed) {other : Environment} (h : p.WalkedWith node chain)
    (h' : p.WalkedWith node other) : chain = other := by
  obtain ⟨_, _, hleads⟩ := h
  obtain ⟨_, _, hleads'⟩ := h'
  exact hleads.walk_unique hleads' hp.distinct_items

/-- Every node that is not a name is walked. -/
theorem Located.exists_walked (h : p.Located around node) (hnode : ∀ x, node ≠ .ofName x) :
    ∃ chain, p.WalkedWith node chain := by
  rcases h.comes_up with hwalked | ⟨-, -, x, -, -, heq, -, -⟩
  · exact hwalked
  · exact absurd heq (hnode x)

namespace Owners

/-- The chain with which a node is walked runs through the scopes around the node. -/
theorem runs_annotate (hp : p.Formed) (hl : p.LaidOut) (ho : p.Owners owner)
    (hn : p.Located around node) (h : p.WalkedWith node chain) :
    chain.Runs owner p.annotate.store.scopes.size around := by
  obtain ⟨b, rest, hleads⟩ := h
  exact (ho.runs hp hn hleads).congr (fun _ _ => rfl) (ho.size_le_annotate hp hl hleads)

/-- The scopes for variables of a chain belong to the scopes for variables around its place. -/
theorem map_variables (ho : p.Owners owner)
    (hruns : chain.Runs owner p.annotate.store.scopes.size around) :
    (chain.scopeIds.filter fun id => (p.annotate.store.scope id).kind == .variable).map owner =
      Node.scopesAround around := by
  have hkinds : ∀ id ∈ chain.scopeIds, ((p.annotate.store.scope id).kind == .variable) =
      !OfLabel owner id := fun id hid => ho.tracks_annotate.kind_eq (hruns.known id hid)
  rw [List.filter_congr hkinds, ← Node.filter_openers, ← hruns.owners, List.filter_map]
  rfl

/-- In the end a scope binds what its owner binds. -/
theorem mem_names_of_bindsIn (ho : p.Owners owner) (hid : id < p.annotate.store.scopes.size)
    (hvariable : ((p.annotate.store.scope id).kind == .variable) = true)
    (hx : p.BindsIn x (owner id)) : x ∈ (p.annotate.store.scope id).names := by
  rw [ho.tracks_annotate.kind_eq hid, Bool.not_eq_true'] at hvariable
  obtain ⟨done, hsplit, hreads, -⟩ := (ho.tracks_annotate.scopes id hid).bound hvariable
  obtain ⟨b, hb, hident⟩ := hx
  rw [← Scope.contains_iff_mem_names]
  by_contra hcontains
  -- A scope that does not bind the identifier has no value for it, but the binding is done.
  rw [Bool.not_eq_true] at hcontains
  have hget := hreads.get? x
  rw [Scope.get?_eq_none hcontains, eq_comm, Option.map_eq_none_iff, List.find?_eq_none] at hget
  have hdone : b ∈ done := by
    rw [hsplit] at hb
    simpa [pendingIn] using hb
  exact hget b hdone (beq_iff_eq.2 hident)

end Owners

end Program

/-! ### Scopes of a run -/

namespace Memory.Charted

/-- A scope of a chain binds only what one of the scopes around the place binds. -/
theorem bindsIn (h : mem.Charted p chart D) (hmirrors : env.Mirrors chart around)
    (hid : id ∈ env.scopeIds) (hx : (mem.store.scope id).contains x = true) :
    chart.owner id ∈ Node.scopesAround around ∧ p.BindsIn x (chart.owner id) := by
  obtain ⟨hbase, hsize⟩ := hmirrors.known id hid
  have hscope := h.scopes id hbase hsize
  obtain ⟨b, hb, hident⟩ := (hscope.contains_iff x).1 hx
  refine ⟨?_, b, hscope.declared b hb, hident⟩
  rw [← hmirrors.owners]
  exact List.mem_map_of_mem hid

/-- A chain through the scopes around a place stands for the chain of analysis there. -/
theorem chainAt (hp : p.Formed) (hl : p.LaidOut) (ho : p.Owners owner)
    (h : mem.Charted p chart D) (hn : p.Located around node)
    (hwalked : ∃ chain, p.WalkedWith node chain) (hmirrors : env.Mirrors chart around) :
    p.ChainAt (Function.invFunOn owner {i | i < p.annotate.store.scopes.size} ∘ chart.owner)
      mem.store env node := by
  obtain ⟨chain, hwalked⟩ := hwalked
  have hruns := ho.runs_annotate hp hl hn hwalked
  have hinverse : ∀ i < p.annotate.store.scopes.size,
      Function.invFunOn owner {i | i < p.annotate.store.scopes.size} (owner i) = i := by
    have hinjective : Set.InjOn owner {i | i < p.annotate.store.scopes.size} :=
      fun i hi j hj heq => ho.tracks_annotate.injective i hi j hj heq
    exact fun i hi => hinjective.leftInvOn_invFunOn hi
  have hvariables := ho.map_variables hruns
  refine ⟨chain, fun other => ⟨fun hother => hother.unique hp hwalked, fun heq => heq ▸ hwalked⟩,
    ?_, fun id hid x hx => ?_⟩
  · rw [← List.map_map, hmirrors.owners, ← hvariables, List.map_map]
    refine (List.map_congr_left fun i hi => ?_).trans (List.map_id _)
    exact hinverse i (hruns.known i (List.mem_of_mem_filter hi))
  · obtain ⟨hmem, hbinds⟩ := h.bindsIn hmirrors hid (Scope.contains_iff_mem_names.2 hx)
    rw [← hvariables] at hmem
    obtain ⟨i, hi, howner⟩ := List.mem_map.1 hmem
    have hsize := hruns.known i (List.mem_of_mem_filter hi)
    rw [← howner] at hbinds
    rw [Function.comp_apply, ← howner, hinverse i hsize]
    exact ho.mem_names_of_bindsIn hsize (List.mem_filter.1 hi).2 hbinds

/-- Where no scope around the place binds an identifier, the chain does not find it. -/
theorem variableScope?_eq_none (h : mem.Charted p chart D) (hmirrors : env.Mirrors chart around)
    (hnone : ∀ scope ∈ Node.scopesAround around, ¬ p.BindsIn x scope) :
    mem.store.variableScope? env x = none := by
  rw [Store.variableScope?, Store.find?, Store.map_snd_findFrom, List.find?_eq_none]
  intro id hid hbinds
  rw [Store.binds, Bool.and_eq_true] at hbinds
  obtain ⟨hmem, hbound⟩ := h.bindsIn hmirrors hid hbinds.2
  exact hnone _ hmem hbound

end Memory.Charted

theorem Store.lookup?_eq_none {α : Type} {store : Store α} (h : store.variableScope? env x = none) :
    store.lookup? env x = none := by
  rw [variableScope?, Option.map_eq_none_iff] at h
  rw [lookup?, lookupKind?, h]
  rfl

/-! ### Names that a run uses -/

/-- A name that a run uses is the name of a variable, and stands at the place where the frame is at
work. -/
theorem InPlace.uses_place (hl : p.LaidOut) (h : InPlace p run n chart mem frames)
    (huses : Uses run n r mem' frame callers) : ∃ around,
      p.Located around (.ofName r) ∧ r.kind = .variable ∧
        frame.environment.Mirrors chart around := by
  cases huses with
  | read hrun htasks =>
    obtain ⟨around, hmirrors, htrail⟩ := (h.of_going hrun).frame_charted.place
    rw [htasks] at htrail
    cases htrail with
    | eval he =>
      refine ⟨around, he.located, ?_, hmirrors⟩
      obtain ⟨node, outer, rfl, hnode, hr⟩ := he
      exact (hl.nodes node hnode.contains).names _ hr
    | plain htask => cases htask
  | assign hrun htasks hbegun =>
    obtain ⟨around, hmirrors, htrail⟩ := (h.of_going hrun).frame_charted.place
    rw [htasks] at htrail
    generalize hx : r.identifier = x at htrail
    cases htrail with
    | @assign _ target _ _ _ _ _ he hbegun' =>
      -- The frame is at work on one assignment, so its target is the name.
      rw [hx] at hbegun
      have hsame := (hbegun.unique hbegun' nofun nofun).1
      cases hsame
      refine ⟨_, he.child List.mem_cons_self, ?_, hmirrors.enter rfl⟩
      exact (hl.nodes _ he.contains).names (.name r) List.mem_cons_self
    | plain htask => cases htask

namespace Machine

/-- A name without a definition is not defined at run time. -/
theorem unresolved_fails (hp : p.Formed) (hl : p.LaidOut) {memory : Memory}
    (huses : Uses (((start memory).load p).run p) n r mem frame callers)
    (hnone : p.annotate.definitionOf? r.id = none) :
    ∃ frames, ((start memory).load p).run p (n + 1) =
      .failed (.notDefined r.identifier) mem frames := by
  obtain ⟨owner, ho⟩ := Program.exists_owners hp hl
  have hgoing : ((start memory).load p).run p n = .going mem (frame :: callers) := by
    cases huses <;> assumption
  obtain ⟨chart, h⟩ := exists_inPlace hp.indexed memory hgoing
  obtain ⟨around, hlocated, hkind, hmirrors⟩ := h.uses_place hl huses
  have hmissing := h.memory.variableScope?_eq_none hmirrors
    ((ho.definitionOf?_eq_none_iff hp hl hlocated hkind).1 hnone)
  rw [run_succ, hgoing, Progress.next]
  cases huses with
  | read _ htasks =>
    rw [tick_of_tasks htasks, Memory.perform, Memory.eval]
    simp only [Store.lookup?_eq_none hmissing]
    exact ⟨_, rfl⟩
  | assign _ htasks _ =>
    -- The value that is assigned lies on the stack.
    have hsound := (sound_going_load memory p).ticks hp.indexed n
    rw [show (Progress.next p)^[n] _ = _ from hgoing] at hsound
    have hbalanced := hsound.2.1.1.balanced
    rw [htasks, balanced_cons] at hbalanced
    obtain ⟨height, hheight, -⟩ := hbalanced
    rw [tick_of_tasks htasks, Memory.perform]
    cases hvalues : frame.values with
    | nil =>
      rw [hvalues] at hheight
      cases hheight
    | cons v values =>
      simp only [hmissing]
      exact ⟨_, rfl⟩

/-- The scopes of a text that parses, at run time and in analysis. Whenever the machine pauses, the
chain of the innermost frame stands for the chain with which analysis walks the current statement,
and the chain of every other frame for the one with which analysis walks the call that the frame
waits for. A name that analysis leaves without a definition cannot be read or assigned: using it
fails with the words that it is not defined. -/
theorem chains_mirror_analysis {text : String} {p : Program} (hparse : Program.parse text = .ok p)
    (memory : Memory) :
    (∀ k, Paused p (((start memory).load p).after k) → ∃ n frame callers s ρ,
      (((start memory).load p).after k).frames = frame :: callers ∧
      ((start memory).load p).run p n =
        .going (((start memory).load p).after k).memory (frame :: callers) ∧
      p.node? frame.current = some (.stmt s) ∧
      p.ChainAt ρ (((start memory).load p).after k).memory.store frame.environment (.stmt s) ∧
      ∀ caller below, caller :: below <:+ callers → ∃ e,
        Waits (((start memory).load p).run p) n below caller e ∧ p.Contains (.expr e) ∧
        p.ChainAt ρ (((start memory).load p).after k).memory.store caller.environment (.expr e)) ∧
    ∀ n r mem frame callers, Uses (((start memory).load p).run p) n r mem frame callers →
      p.annotate.definitionOf? r.id = none → ∃ fault frames,
        fault.message = s!"'{r.identifier}' is not defined" ∧
        ((start memory).load p).run p (n + 1) = .failed fault mem frames ∧
        ∃ fuel m, ((start memory).load p).runFor fuel = some (m, .failed fault) := by
  have hp := Program.formed_of_parse hparse
  have hl := Program.laidOut_of_parse hparse
  obtain ⟨owner, ho⟩ := Program.exists_owners hp hl
  refine ⟨fun k hpaused => ?_, fun n r mem frame callers huses hnone => ?_⟩
  · obtain ⟨n, hgoing⟩ := (sound_load memory p).exists_run hp.indexed hpaused
    obtain ⟨frame, callers, s, labels, tasks, hframes, htasks, hcurrent⟩ := hpaused.front
    rw [hframes] at hgoing
    obtain ⟨chart, h⟩ := exists_inPlace hp.indexed memory hgoing
    obtain ⟨around, hmirrors, htrail⟩ := h.frame_charted.place
    rw [htasks] at htrail
    -- A machine pauses in front of its current statement.
    cases htrail with
    | exec hs =>
      refine ⟨n, frame, callers, s, _, hframes, hgoing, ?_,
        h.memory.chainAt hp hl ho hs (hs.exists_walked nofun) hmirrors, ?_⟩
      · rw [hcurrent]
        exact hp.indexed _ hs.contains
      · intro caller below hsuffix
        obtain ⟨e, place, he, hplace, hwaits⟩ := h.waiting.of_suffix hsuffix
        obtain ⟨site, callee, args, rfl⟩ := hwaits.1
        exact ⟨_, hwaits, he.contains,
          h.memory.chainAt hp hl ho he (he.exists_walked nofun) hplace⟩
    | plain htask => cases htask
  · obtain ⟨frames, hfailed⟩ := unresolved_fails hp hl huses hnone
    exact ⟨_, frames, rfl, hfailed, exists_runFor_of_failed hfailed⟩

theorem scan_unresolved : Lexeme.scan "x;" = .ok
    [⟨.identifier "x", ⟨0, 1⟩⟩, ⟨.symbol .semicolon, ⟨1, 2⟩⟩] := by
  decide +kernel

set_option maxRecDepth 2000 in
/-- A program that reads a variable which nobody declares. -/
theorem parse_unresolved : (Program.parse "x;").toOption.map (·.body) =
    some [.evaluate ⟨1, ⟨0, 2⟩⟩ (.name ⟨⟨0, ⟨0, 1⟩⟩, "x", .variable⟩)] := by
  rw [Program.parse, scan_unresolved]
  cbv

/-- The chain in front of the only statement of a program, and what becomes of the name that it
reads. -/
theorem chains_mirror_analysis_unresolved : ∃ p, Program.parse "x;" = .ok p ∧
    (∃ frame s ρ, (fresh.load p).frames = [frame] ∧ p.node? frame.current = some (.stmt s) ∧
      p.ChainAt ρ (fresh.load p).memory.store frame.environment (.stmt s)) ∧
    ∃ fault fuel m, fault.message = "'x' is not defined" ∧
      (fresh.load p).runFor fuel = some (m, .failed fault) := by
  have hbody := parse_unresolved
  cases hparse : Program.parse "x;" with
  | error e =>
    rw [hparse] at hbody
    cases hbody
  | ok p =>
    rw [hparse] at hbody
    have hbody : p.body = _ := Option.some.inj hbody
    have hp := Program.formed_of_parse hparse
    have hl := Program.laidOut_of_parse hparse
    obtain ⟨owner, ho⟩ := Program.exists_owners hp hl
    obtain ⟨hchains, hunresolved⟩ := chains_mirror_analysis hparse ⟨.empty, 0⟩
    have hlocated : p.Located [.stmt (.evaluate ⟨1, ⟨0, 2⟩⟩ (.name ⟨⟨0, ⟨0, 1⟩⟩, "x", .variable⟩))]
        (.ofName ⟨⟨0, ⟨0, 1⟩⟩, "x", .variable⟩) := by
      refine Program.Located.child ⟨_, ?_, .root⟩ List.mem_cons_self
      rw [hbody]
      exact List.mem_cons_self
    have hnone : p.annotate.definitionOf? 0 = none := by
      refine (ho.definitionOf?_eq_none_iff hp hl hlocated rfl).2 fun scope hscope hbinds => ?_
      obtain rfl := List.mem_singleton.1 hscope
      obtain ⟨b, hb, -⟩ := hbinds
      rw [Program.bindingsOf, hbody] at hb
      cases hb
    refine ⟨p, rfl, ?_, ?_⟩
    · obtain ⟨n, frame, callers, s, ρ, hframes, -, hcurrent, hchain, -⟩ :=
        hchains 0 (paused_load _ (by rw [hbody]; exact List.cons_ne_nil _ _))
      refine ⟨frame, s, ρ, ?_, hcurrent, hchain⟩
      have hload : (fresh.load p).frames = frame :: callers := hframes
      rw [hload]
      rw [load, hbody] at hload
      cases hload
      rfl
    · have hrun : ∃ mem frame, (fresh.load p).run p 1 = .going mem [frame] ∧ frame.tasks =
          [.eval (.name ⟨⟨0, ⟨0, 1⟩⟩, "x", .variable⟩), .discard] := by
        rw [run, load, hbody]
        exact ⟨_, _, rfl, rfl⟩
      obtain ⟨mem, frame, hgoing, htasks⟩ := hrun
      obtain ⟨fault, -, hmessage, -, fuel, m, hfuel⟩ :=
        hunresolved 1 _ mem frame [] (.read hgoing htasks) hnone
      exact ⟨fault, fuel, m, hmessage, hfuel⟩

end Machine

end LWorkbench
