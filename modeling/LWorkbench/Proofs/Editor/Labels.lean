import LWorkbench.Proofs.Editor.Occurrences

/-!
# Labels that jumps name

A jump may name the labels around it up to the function that it stands in, and analysis reports a
label that is not among them as undefined. What the label is defined by is looked up among all labels
around the jump, also beyond the function. So a label that is not reported is defined by the
innermost label of its identifier inside the function; but one that is reported is without a
definition only if no statement outside the function has that label either.

## Main results

* `Program.Formed.undefined_iff` — which labels are reported as undefined
* `Program.jump_labels_defined` — what the labels of jumps are defined by
-/

namespace LWorkbench

namespace Program

variable {p : Program} {text : String} {n : Node} {outer : List Node} {r : Name} {v : Violation}

/-- What is reported about a node at its place. -/
theorem Formed.violation_iff (hp : p.Formed) (h : p.Located outer n) :
    p.annotate.notes[n.id]?.bind Note.violation = some v ↔ p.Violates outer n v := by
  refine hp.mark_annotate_iff.trans ⟨?_, fun hv => ⟨outer, n, h, rfl, hv⟩⟩
  rintro ⟨outer', m, hm, hid, hv⟩
  obtain rfl := hp.indexed.eq_of_id hm.contains h.contains hid
  obtain rfl := hm.unique hp h
  exact hv

/-- The label of a jump is reported as undefined if and only if no statement around the jump inside
the same function has it. -/
theorem Formed.undefined_iff (hp : p.Formed) (h : p.Located (n :: outer) (.ofName r))
    (hjump : n.jumpLabel? = some r) :
    p.annotate.notes[r.id]?.bind Note.violation = some (.undefinedLabel r.identifier) ↔
      Node.target? outer r.identifier = none := by
  refine (hp.violation_iff h).trans ?_
  unfold Node.jumpLabel? at hjump
  split at hjump
  · subst hjump
    rw [violates_breakLabel_iff, eq_self_iff_true, true_and]
  · subst hjump
    rw [violates_continueLabel_iff, eq_self_iff_true, true_and]
    exact or_iff_left nofun
  · cases hjump

/-- What the label of a jump in a text that parses is defined by. It is reported as undefined if and
only if no statement around the jump inside the same function has that label. A label that is not
reported is defined by the innermost such label. A label that is reported has no definition if and
only if no statement around the jump has the label at all, even outside the function. Then nothing
is told about it anywhere, and it is listed as a reference of nothing. -/
theorem jump_labels_defined (hparse : parse text = .ok p)
    (h : p.Located (n :: outer) (.ofName r)) (hjump : n.jumpLabel? = some r) :
    (p.annotate.notes[r.id]?.bind Note.violation = some (.undefinedLabel r.identifier) ↔
      Node.target? outer r.identifier = none) ∧
    (p.annotate.notes[r.id]?.bind Note.violation ≠ some (.undefinedLabel r.identifier) →
      ∃ found body, Node.target? outer r.identifier = some (found, body) ∧
        p.annotate.definitionOf? r.id = some found.id) ∧
    (p.annotate.notes[r.id]?.bind Note.violation = some (.undefinedLabel r.identifier) →
      (p.annotate.definitionOf? r.id = none ↔ ∀ m ∈ outer, m.labeled? r.identifier = none)) ∧
    (p.annotate.definitionOf? r.id = none →
      (∀ caret, p.annotate.nameAt? text caret = some r →
        p.annotate.hover? text caret = none ∧ p.annotate.definition? text caret = none ∧
        (∀ withDefinition, p.annotate.references text caret withDefinition = []) ∧
        p.annotate.highlights text caret = []) ∧
      ∀ k withDefinition, r ∉ p.annotate.referencesTo k withDefinition) := by
  have hp := formed_of_parse hparse
  have hl := laidOut_of_parse hparse
  obtain ⟨owner, ho⟩ := exists_owners hp hl
  have hundefined := hp.undefined_iff h hjump
  have hdefinition : p.annotate.definitionOf? r.id =
      (outer.findSome? (Node.labeled? r.identifier)).map (·.1.id) := by
    rw [ho.definitionOf?_of_label hp hl h (.inr hjump), List.findSome?_cons,
      Node.labeled?_of_jumpLabel? hjump]
  refine ⟨hundefined, fun hreported => ?_, fun _ => ?_, fun hnone => ⟨fun caret hcaret => ?_, ?_⟩⟩
  · obtain ⟨⟨found, body⟩, htarget⟩ := Option.ne_none_iff_exists'.1 (hundefined.not.1 hreported)
    -- What is found inside the function is what is found among all nodes around the jump.
    have hfound : outer.findSome? (Node.labeled? r.identifier) = some (found, body) :=
      (List.takeWhile_prefix _).findSome?_eq_some htarget
    exact ⟨found, body, htarget, by rw [hdefinition, hfound, Option.map_some]⟩
  · rw [hdefinition, Option.map_eq_none_iff, List.findSome?_eq_none_iff]
  · exact Annotated.silent_of_undefined hparse hcaret hnone
  · intro k withDefinition hlisted
    have hbinding := (List.mem_filter.1 hlisted).2
    rw [Bool.and_eq_true, beq_iff_eq, hp.bindingOf?_eq h.contains, hnone] at hbinding
    cases hbinding.2

/-- A labeled function that names its own label. -/
def labelOutside : Stmt :=
  .labeled ⟨5, ⟨0, 23⟩⟩ ⟨⟨0, ⟨0, 1⟩⟩, "a", .label⟩ (.evaluate ⟨4, ⟨2, 23⟩⟩
    (.function ⟨3, ⟨2, 22⟩⟩ []
      [.breakTo ⟨2, ⟨13, 21⟩⟩ (some ⟨⟨1, ⟨19, 20⟩⟩, "a", .label⟩)]))

theorem scan_label_outside : Lexeme.scan "a:function()\x7bbreak a;\x7d;" = .ok
    [⟨.identifier "a", ⟨0, 1⟩⟩, ⟨.symbol .colon, ⟨1, 2⟩⟩, ⟨.keyword .functionWord, ⟨2, 10⟩⟩,
      ⟨.symbol .leftParen, ⟨10, 11⟩⟩, ⟨.symbol .rightParen, ⟨11, 12⟩⟩,
      ⟨.symbol .leftBrace, ⟨12, 13⟩⟩, ⟨.keyword .breakWord, ⟨13, 18⟩⟩,
      ⟨.identifier "a", ⟨19, 20⟩⟩, ⟨.symbol .semicolon, ⟨20, 21⟩⟩,
      ⟨.symbol .rightBrace, ⟨21, 22⟩⟩, ⟨.symbol .semicolon, ⟨22, 23⟩⟩] := by
  decide +kernel

set_option maxRecDepth 4000 in
theorem parse_label_outside :
    parse "a:function()\x7bbreak a;\x7d;" = .ok (ofBody [labelOutside]) := by
  rw [parse, scan_label_outside]
  cbv

/-- The label that the function names is reported as undefined and yet has a definition. -/
theorem jump_labels_defined_outside : ∃ p, parse "a:function()\x7bbreak a;\x7d;" = .ok p ∧
    p.annotate.notes[1]?.bind Note.violation = some (.undefinedLabel "a") ∧
    p.annotate.definitionOf? 1 ≠ none := by
  have htop : (ofBody [labelOutside]).Located [] (.stmt labelOutside) :=
    ⟨labelOutside, List.mem_cons_self, .root⟩
  have hjump := ((htop.child (List.mem_cons_of_mem _ List.mem_cons_self)).child
    List.mem_cons_self).child List.mem_cons_self
  obtain ⟨hundefined, -, hnone, -⟩ :=
    jump_labels_defined parse_label_outside (hjump.child List.mem_cons_self) rfl
  have hreported := hundefined.2 rfl
  refine ⟨_, parse_label_outside, hreported, fun hdefinition => ?_⟩
  -- The labeled statement stands outside the function, and around the jump all the same.
  have houtside := (hnone hreported).1 hdefinition _
    (List.mem_cons_of_mem _ (List.mem_cons_of_mem _ List.mem_cons_self))
  cases houtside

end Program

end LWorkbench
