import LWorkbench.Editor.Query
import LWorkbench.Proofs.Analysis.Definitions
import LWorkbench.Proofs.Editor.Carets
import LWorkbench.Proofs.Locating

/-!
# Occurrences of a binding

The questions about a name under a caret all go through its definition. The definition is a name that
is bound somewhere and is its own definition, so it occurs among the names that share it. A name is
found again at the caret where it begins, and different names begin at different carets. So it does
not matter at which of its occurrences a binding is asked for, and the answers to different questions
fit together.

## Main definitions

* `Annotated.Occurrences` — the names with the same definition as a name

## Main results

* `Program.LaidOut.locate?_name` — a name is located from all of its bytes
* `Program.Formed.ordered_names` — different names begin at different bytes
* `Annotated.questions_agree` — what an editor is told about a binding
-/

namespace LWorkbench

theorem Node.name?_eq_some_iff {n : Node} {x : Name} : n.name? = some x ↔ n = .ofName x := by
  unfold name?
  split
  · rw [Option.some.injEq, ofName, expr.injEq, Expr.name.injEq]
  · rename_i h
    exact iff_of_false (Option.some_ne_none x).symm (h x)

/-- The program of a checked text is the one that it parses to, analyzed. -/
theorem CheckedText.program_ofText_eq_some_iff {text : String} {a : Annotated} :
    (ofText text).program = some a ↔ ∃ p, Program.parse text = .ok p ∧ a = p.annotate := by
  unfold ofText
  cases hparse : Program.parse text with
  | ok p => simp [eq_comm]
  | error e => simp

namespace Program

variable {p : Program} {text : String} {n x d r : Name} {offset : Nat} {caret : Caret} {k : NodeId}

/-! ### Names in the text -/

theorem mem_names_iff : x ∈ p.annotate.names ↔ p.Contains (.ofName x) := by
  rw [Annotated.names, List.mem_filterMap]
  constructor
  · rintro ⟨n, hn, hname⟩
    rw [Node.name?_eq_some_iff] at hname
    exact mem_preorder_iff.1 (hname ▸ hn)
  · intro hx
    exact ⟨.ofName x, mem_preorder_iff.2 hx, rfl⟩

/-- The node that is located is the innermost one. -/
theorem LaidOut.locate?_iff (hl : p.LaidOut) {n : Node} :
    p.locate? offset = some n ↔ p.Contains n ∧ n.IsInnermost offset := by
  rw [contains_iff_mem]
  exact Node.getLast?_pathAmong_iff (fun m hm => hl.nodes m (contains_iff_mem.2 hm))
    (List.pairwise_map.2 hl.apart)

/-- A name is located from all of its bytes. -/
theorem LaidOut.locate?_name (hl : p.LaidOut) (hx : p.Contains (.ofName x))
    (hoffset : x.site.span.contains offset) : p.locate? offset = some (.ofName x) :=
  hl.locate?_iff.2 ⟨hx, hoffset, nofun⟩

theorem LaidOut.contains_start (hl : p.LaidOut) (hx : p.Contains (.ofName x)) :
    x.site.span.contains x.site.span.start :=
  Span.contains_iff.2 ⟨Nat.le_refl _, (hl.nodes _ hx).nonempty⟩

/-- Different names begin at different bytes, and they are listed in that order. -/
theorem Formed.ordered_names (hp : p.Formed) (hl : p.LaidOut) :
    p.annotate.names.Pairwise fun n n' => n.site.span.start < n'.site.span.start := by
  have hordered := (hp.walksInOrder hl).ordered
  rw [Annotated.names, List.pairwise_filterMap]
  refine hordered.imp_of_mem fun {m m'} hm hm' hprecedes x hx x' hx' => ?_
  rw [Node.name?_eq_some_iff] at hx hx'
  subst hx hx'
  rcases hprecedes with hlt | ⟨hsame, hstop⟩
  · exact hlt
  · -- From the byte where both begin, only one of them is located.
    have hx := hl.locate?_name (mem_preorder_iff.1 hm) (hl.contains_start (mem_preorder_iff.1 hm))
    have hx' := hl.locate?_name (mem_preorder_iff.1 hm') (hl.contains_start (mem_preorder_iff.1 hm'))
    have hstart : x.site.span.start = x'.site.span.start := hsame
    rw [hstart, hx'] at hx
    obtain rfl : x' = x := by simpa [Node.ofName] using hx
    exact absurd hstop (Nat.lt_irrefl _)

/-- A name is found at the caret where it begins. -/
theorem nameAt?_start (hparse : parse text = .ok p) (hx : p.Contains (.ofName x)) :
    p.annotate.nameAt? text (Caret.ofOffset text x.site.span.start) = some x := by
  have hl := laidOut_of_parse hparse
  have hoffset := Caret.offset_ofOffset_of_atEdge (hx.atEdge hparse).1
  have hlocate := hl.locate?_name hx (hl.contains_start hx)
  rw [Annotated.nameAt?, Annotated.nodeAt?]
  exact congrArg (Option.bind · Node.name?) ((congrArg p.locate? hoffset).trans hlocate)

/-- A name under a caret is a name of the program. -/
theorem contains_of_nameAt? (hparse : parse text = .ok p)
    (h : p.annotate.nameAt? text caret = some x) : p.Contains (.ofName x) := by
  obtain ⟨n, hn, hname⟩ := Option.bind_eq_some_iff.1 h
  rw [Node.name?_eq_some_iff] at hname
  exact hname ▸ ((laidOut_of_parse hparse).locate?_iff.1 hn).1

/-- Names that are in order begin at carets that are in order. -/
theorem before_start (hparse : parse text = .ok p) (hx : p.Contains (.ofName x))
    (hd : p.Contains (.ofName d)) (hlt : x.site.span.start < d.site.span.start) :
    (Caret.ofOffset text x.site.span.start).Before (Caret.ofOffset text d.site.span.start) :=
  Caret.before_ofOffset (hx.atEdge hparse).1 (hd.atEdge hparse).1 hlt

/-! ### What is told about a definition -/

theorem Formed.bindingOf?_eq (hp : p.Formed) (hx : p.Contains (.ofName x)) :
    p.annotate.bindingOf? x = p.annotate.definitionOf? x.id := by
  have hname : p.annotate.program.name? x.id = some x :=
    congrArg (Option.bind · Node.name?) (hp.indexed _ hx)
  rw [Annotated.definitionOf?, hname, Option.bind_some]

theorem Formed.rangeOf?_eq (hp : p.Formed) (hx : p.Contains (.ofName x)) (text : String) :
    p.annotate.rangeOf? text x.id = some (.ofSpan text x.site.span) :=
  congrArg (fun n => (n.map Node.span).map (TextRange.ofSpan text)) (hp.indexed _ hx)

/-- What is introduced is a variable, a parameter or a label. -/
theorem Introduced.exists_kind (hp : p.Formed) (h : p.Introduced r k) :
    ∃ kind, p.annotate.bindingKind? k = some kind := by
  obtain ⟨n, outer, d, hlocated, hintroduces, -, -, rfl, -⟩ := h
  obtain ⟨s, hs, hinside⟩ := hlocated
  cases hinside with
  | child hn hc =>
    have hcontains : p.Contains n := Located.contains ⟨s, hs, hn⟩
    -- The kind is read off the node above the name.
    have hparent : p.annotate.program.parentNode? d.id = some n := by
      have hid : p.parent? d.id = some n.id := hp.parent?_eq hcontains hc
      exact (congrArg (Option.bind · p.node?) hid).trans (hp.indexed n hcontains)
    rw [Annotated.bindingKind?, hparent]
    rcases hintroduces with hbinds | hlabel
    · unfold Node.binds at hbinds
      split at hbinds
      · obtain rfl := List.mem_singleton.1 hbinds
        exact ⟨.variable, if_pos rfl⟩
      · rename_i params _
        have hparam : (params.any fun x => x.id == d.id) = true :=
          List.any_eq_true.2 ⟨d, hbinds, beq_self_eq_true _⟩
        exact ⟨.parameter, if_pos hparam⟩
      · cases hbinds
    · unfold Node.label? at hlabel
      split at hlabel
      · cases hlabel
        exact ⟨.label, if_pos rfl⟩
      · cases hlabel

/-! ### Occurrences -/

theorem Formed.mem_referencesTo_iff (hp : p.Formed) :
    x ∈ p.annotate.referencesTo k true ↔
      p.Contains (.ofName x) ∧ p.annotate.definitionOf? x.id = some k := by
  rw [Annotated.referencesTo, List.mem_filter, mem_names_iff, Bool.true_or, Bool.true_and,
    beq_iff_eq]
  exact and_congr_right fun hx => by rw [hp.bindingOf?_eq hx]

theorem referencesTo_false :
    p.annotate.referencesTo k false =
      (p.annotate.referencesTo k true).filter fun n => n.id != k := by
  simp only [Annotated.referencesTo, List.filter_filter, Bool.false_or, Bool.true_or, Bool.true_and]

/-- The ranges of the names that share a definition are in order. -/
theorem pairwise_ranges (hparse : parse text = .ok p) :
    ((p.annotate.referencesTo k true).map fun n => TextRange.ofSpan text n.site.span).Pairwise
      fun range range' => range.start.Before range'.start := by
  have hp := formed_of_parse hparse
  rw [List.pairwise_map]
  have hordered := (hp.ordered_names (laidOut_of_parse hparse)).sublist
    (List.filter_sublist (p := fun n => (true || n.id != k) && p.annotate.bindingOf? n == some k))
  refine hordered.imp_of_mem fun {n n'} hn hn' hlt => ?_
  exact before_start hparse (hp.mem_referencesTo_iff.1 hn).1 (hp.mem_referencesTo_iff.1 hn').1 hlt

/-- Names with the same range are the same. -/
theorem eq_of_range_eq (hparse : parse text = .ok p) (hx : p.Contains (.ofName x))
    (hd : p.Contains (.ofName d))
    (h : TextRange.ofSpan text x.site.span = TextRange.ofSpan text d.site.span) : x = d := by
  have hstart : Caret.ofOffset text x.site.span.start = Caret.ofOffset text d.site.span.start :=
    congrArg TextRange.start h
  have hfound := nameAt?_start hparse hx
  rw [hstart, nameAt?_start hparse hd] at hfound
  exact (Option.some.inj hfound).symm

/-- Leaving out a name is leaving out its range. -/
theorem filter_ranges (hparse : parse text = .ok p) (hd : p.Contains (.ofName d)) :
    ((p.annotate.referencesTo d.id true).map fun n => TextRange.ofSpan text n.site.span).filter
        (· != TextRange.ofSpan text d.site.span) =
      (p.annotate.referencesTo d.id false).map fun n => TextRange.ofSpan text n.site.span := by
  have hp := formed_of_parse hparse
  rw [List.filter_map, referencesTo_false]
  congr 1
  refine List.filter_congr fun n hn => ?_
  have hn := (hp.mem_referencesTo_iff.1 hn).1
  rw [Function.comp_apply, Bool.eq_iff_iff, bne_iff_ne, bne_iff_ne, not_iff_not]
  constructor
  · intro h
    rw [eq_of_range_eq hparse hn hd h]
  · intro hid
    have heq : Node.ofName n = .ofName d := hp.indexed.eq_of_id hn hd hid
    cases heq
    rfl

end Program

namespace Annotated

variable {a : Annotated} {text : String} {caret caret' : Caret} {r : Name}

/-- The names with the same definition as a name, in the order of the text. The definition is one of
them. -/
structure Occurrences (a : Annotated) (r d : Name) (names : List Name) : Prop where
  definition : a.definitionOf? r.id = some d.id
  self : d ∈ names
  mem_iff : ∀ n, n ∈ names ↔
    .ofName n ∈ a.program.nodes ∧ a.definitionOf? n.id = a.definitionOf? r.id
  ordered : names.Pairwise fun n n' => n.site.span.start < n'.site.span.start

/-- What is told at a caret about a name whose definition has the range. -/
structure Tells (a : Annotated) (text : String) (caret : Caret) (r : Name) (range : TextRange) :
    Prop where
  /-- The references are the ranges of the names with the same definition. -/
  occurrences : ∃ d names, a.Occurrences r d names ∧ range = TextRange.ofSpan text d.site.span ∧
    a.references text caret true = names.map fun n => TextRange.ofSpan text n.site.span
  /-- They are in the order of the text, and none is listed twice. -/
  ordered : (a.references text caret true).Pairwise fun x y => x.start.Before y.start
  /-- Without the declaration, its range is left out and nothing else. -/
  without : a.references text caret false = (a.references text caret true).filter (· != range)
  /-- At the start of each of them the same is told. -/
  anywhere : ∀ other ∈ a.references text caret true,
    a.definition? text other.start = some range ∧
    (∀ withDefinition, a.references text other.start withDefinition =
      a.references text caret withDefinition) ∧
    a.highlights text other.start = a.highlights text caret
  /-- The definition is highlighted first, and it alone as being written. -/
  written : ∃ uses, a.highlights text caret = ⟨range, .write⟩ :: uses ∧
    ∀ use ∈ uses, use.kind = .read
  /-- The references are highlighted, each once. -/
  highlighted :
    ((a.highlights text caret).map Highlight.range).Perm (a.references text caret true)

/-- Where the same binding is found, the same is told about it. -/
theorem same_answers (h : a.bindingAt? text caret = a.bindingAt? text caret') :
    a.definition? text caret = a.definition? text caret' ∧
    (∀ withDefinition,
      a.references text caret withDefinition = a.references text caret' withDefinition) ∧
    a.highlights text caret = a.highlights text caret' := by
  refine ⟨?_, fun withDefinition => ?_, ?_⟩
  · rw [definition?, definition?, h]
  · rw [references, references, h]
  · rw [highlights, highlights, h]

theorem silent_of_none (h : a.bindingAt? text caret = none) :
    a.definition? text caret = none ∧
    (∀ withDefinition, a.references text caret withDefinition = []) ∧
    a.highlights text caret = [] := by
  refine ⟨?_, fun withDefinition => ?_, ?_⟩
  · rw [definition?, h, Option.bind_none]
  · rw [references, h]
  · rw [highlights, h]

theorem references_of_some {k : NodeId} (h : a.bindingAt? text caret = some k)
    (withDefinition : Bool) : a.references text caret withDefinition =
      (a.referencesTo k withDefinition).map fun n => TextRange.ofSpan text n.site.span := by
  rw [references, h]

theorem highlights_of_some {k : NodeId} {range : TextRange} (h : a.bindingAt? text caret = some k)
    (hrange : a.rangeOf? text k = some range) : a.highlights text caret =
      ⟨range, .write⟩ :: (a.references text caret false).map (⟨·, .read⟩) := by
  rw [references_of_some h, highlights, h, List.map_map]
  simp only [hrange]
  rfl

/-- A name is described if and only if its binding has a kind. -/
theorem isSome_hover?_iff (hr : a.nameAt? text caret = some r) :
    (a.hover? text caret).isSome ↔ (a.kindOf? r.id).isSome := by
  rw [hover?, hr]
  cases h : a.kindOf? r.id <;> simp [h]

/-- The name under a caret is asked for by its definition. -/
theorem bindingAt?_eq {p : Program} (hparse : Program.parse text = .ok p)
    (hr : p.annotate.nameAt? text caret = some r) :
    p.annotate.bindingAt? text caret = p.annotate.definitionOf? r.id := by
  rw [bindingAt?, hr, Option.bind_some,
    (Program.formed_of_parse hparse).bindingOf?_eq (Program.contains_of_nameAt? hparse hr)]

/-- Nothing is told about a name without a definition. -/
theorem silent_of_undefined {p : Program} (hparse : Program.parse text = .ok p)
    (hr : p.annotate.nameAt? text caret = some r)
    (hnone : p.annotate.definitionOf? r.id = none) :
    p.annotate.hover? text caret = none ∧ p.annotate.definition? text caret = none ∧
    (∀ withDefinition, p.annotate.references text caret withDefinition = []) ∧
    p.annotate.highlights text caret = [] := by
  refine ⟨?_, silent_of_none ((bindingAt?_eq hparse hr).trans hnone)⟩
  rw [← Option.not_isSome_iff_eq_none, isSome_hover?_iff hr, kindOf?, hnone]
  exact Bool.false_ne_true

/-- What is told about a name whose definition is its own definition. -/
theorem tells_of_definition {p : Program} {d : Name} (hparse : Program.parse text = .ok p)
    (hr : p.annotate.nameAt? text caret = some r)
    (hdefinition : p.annotate.definitionOf? r.id = some d.id) (hd : p.Contains (.ofName d))
    (hself : p.annotate.definitionOf? d.id = some d.id) :
    p.annotate.definition? text caret = some (.ofSpan text d.site.span) ∧
      p.annotate.Tells text caret r (.ofSpan text d.site.span) := by
  have hp := Program.formed_of_parse hparse
  have hat := (bindingAt?_eq hparse hr).trans hdefinition
  have hrange := hp.rangeOf?_eq hd text
  have htold : p.annotate.definition? text caret = some (.ofSpan text d.site.span) := by
    rw [definition?, hat, Option.bind_some, hrange]
  have hreferences := references_of_some hat
  have hordered : (p.annotate.references text caret true).Pairwise
      fun x y => x.start.Before y.start := hreferences true ▸ Program.pairwise_ranges hparse
  have hwithout : p.annotate.references text caret false =
      (p.annotate.references text caret true).filter (· != TextRange.ofSpan text d.site.span) := by
    rw [hreferences, hreferences, Program.filter_ranges hparse hd]
  have hhighlights := highlights_of_some hat hrange
  have hmem : TextRange.ofSpan text d.site.span ∈ p.annotate.references text caret true := by
    rw [hreferences]
    exact List.mem_map.2 ⟨d, hp.mem_referencesTo_iff.2 ⟨hd, hself⟩, rfl⟩
  refine ⟨htold, ⟨⟨d, _, ⟨hdefinition, ?_, fun n => ?_, ?_⟩, rfl, hreferences true⟩, hordered,
    hwithout, fun other hother => ?_, ⟨_, hhighlights, fun use huse => ?_⟩, ?_⟩⟩
  · exact hp.mem_referencesTo_iff.2 ⟨hd, hself⟩
  · rw [hp.mem_referencesTo_iff, hdefinition]
    exact and_congr_left fun _ => hp.mem_nodes_iff.symm
  · exact (hp.ordered_names (Program.laidOut_of_parse hparse)).sublist List.filter_sublist
  · -- A name with the same definition is found where it begins.
    rw [hreferences] at hother
    obtain ⟨n, hn, rfl⟩ := List.mem_map.1 hother
    obtain ⟨hn, hshared⟩ := hp.mem_referencesTo_iff.1 hn
    have hthere := (bindingAt?_eq hparse (Program.nameAt?_start hparse hn)).trans hshared
    obtain ⟨hsame, hreferences', hhighlights'⟩ := same_answers (hthere.trans hat.symm)
    exact ⟨hsame.trans htold, hreferences', hhighlights'⟩
  · obtain ⟨range, -, rfl⟩ := List.mem_map.1 huse
    rfl
  · have hnodup : (p.annotate.references text caret true).Nodup :=
      hordered.imp fun hbefore heq => hbefore.ne (congrArg TextRange.start heq)
    rw [hhighlights, List.map_cons, List.map_map, hwithout, ← hnodup.erase_eq_filter]
    simp only [Function.comp_def, List.map_id']
    exact (List.perm_cons_erase hmem).symm

/-- What an editor is told about the name under a caret in a text that parses. A name is described
if and only if its definition is shown, and otherwise nothing is listed for it. If it has a
definition, the references are the ranges of exactly the names with that definition, in the order of
the text and each once, and leaving out the declaration leaves out its range. Asking at the start of
any of them tells the same. The highlights are the definition, as the only one that is written, and
then the other references. -/
theorem questions_agree (hchecked : (CheckedText.ofText text).program = some a)
    (hr : a.nameAt? text caret = some r) :
    ((a.hover? text caret).isSome ↔ (a.definition? text caret).isSome) ∧
    (a.definition? text caret = none →
      (∀ withDefinition, a.references text caret withDefinition = []) ∧
        a.highlights text caret = []) ∧
    ∀ range, a.definition? text caret = some range → a.Tells text caret r range := by
  obtain ⟨p, hparse, rfl⟩ := CheckedText.program_ofText_eq_some_iff.1 hchecked
  have hp := Program.formed_of_parse hparse
  -- Without a definition there is nothing to tell. With one the node above it tells its kind.
  cases hdefinition : p.annotate.definitionOf? r.id with
  | none =>
    obtain ⟨hhover, hnone, hsilent⟩ := silent_of_undefined hparse hr hdefinition
    rw [hhover, hnone]
    exact ⟨Iff.rfl, fun _ => hsilent, nofun⟩
  | some k =>
    have hl := Program.laidOut_of_parse hparse
    obtain ⟨around, hlocated⟩ := (Program.contains_of_nameAt? hparse hr).located
    obtain ⟨owner, ho⟩ := Program.exists_owners hp hl
    have hintroduced := ho.introduced hp hl hlocated hdefinition
    obtain ⟨kind, hkind⟩ := hintroduced.exists_kind hp
    obtain ⟨n, outer, d, hd, -, -, -, rfl, hself⟩ := hintroduced
    obtain ⟨htold, htells⟩ := tells_of_definition hparse hr hdefinition hd.contains hself
    rw [isSome_hover?_iff hr, htold, kindOf?, hdefinition, Option.bind_some, hkind]
    refine ⟨Iff.rfl, nofun, fun range hrange => ?_⟩
    rw [← Option.some.inj hrange]
    exact htells

/-- A variable that is used in front of its declaration. -/
theorem asked_use_before_declaration : (CheckedText.ofText "a;var a;").program.map
    (fun a => (a.nameAt? "a;var a;" ⟨0, 0⟩, a.definition? "a;var a;" ⟨0, 0⟩)) =
      some (some ⟨⟨0, ⟨0, 1⟩⟩, "a", .variable⟩, some ⟨⟨0, 6⟩, ⟨0, 7⟩⟩) := by
  decide +kernel

/-- At the use the declaration behind it is shown, and all that is told about it fits together. -/
theorem questions_agree_use_before_declaration :
    ∃ a r, (CheckedText.ofText "a;var a;").program = some a ∧
      a.nameAt? "a;var a;" ⟨0, 0⟩ = some r ∧
      a.Tells "a;var a;" ⟨0, 0⟩ r ⟨⟨0, 6⟩, ⟨0, 7⟩⟩ := by
  obtain ⟨a, hchecked, hasked⟩ := Option.map_eq_some_iff.1 asked_use_before_declaration
  obtain ⟨hname, hdefinition⟩ := Prod.mk.inj hasked
  obtain ⟨-, -, htells⟩ := questions_agree hchecked hname
  exact ⟨a, _, hchecked, hname, htells _ hdefinition⟩

end Annotated

end LWorkbench
