import LWorkbench.Editor.CheckedText
import LWorkbench.Proofs.Analysis.Walk
import Mathlib

/-!
# Diagnostics of programs

Analysis marks exactly the nodes that break a rule, each with the rule that it breaks, and the
diagnostics of a text that parses are these nodes in the order of the text.

## Main results

* `Program.Formed.mark_annotate_iff` — the nodes that are marked
* `Program.diagnostics_iff_violates` — the diagnostics of a text
-/

namespace LWorkbench

variable {p : Program} {k : NodeId} {v : Violation}

namespace Analysis

/-- The state in which a program on its own is analyzed. -/
def start (p : Program) : Analysis :=
  { notes := p.blankNotes
    store := (Store.empty.root).2
    loopDepth := 0
    functionDepth := 0
    functionBase := 1 }

/-- The chain of the outermost scope. -/
def rootChain : Environment := (Store.empty (α := NodeId)).root.1

/-- At the beginning of a program there is nothing around and nothing bound. -/
theorem stands_start (p : Program) : Stands (start p) rootChain [] 0 [] where
  holds := by
    refine ⟨?_, rfl, ?_⟩
    · intro id hid
      obtain rfl := List.mem_singleton.1 hid
      exact Nat.zero_lt_one
    · intro x
      exact iff_of_false Bool.false_ne_true (by simp)
  loops := by simp [start, Node.sameFunction]
  functions := by simp [start]
  base_le := Nat.le_refl _
  labels _ := rfl

theorem mark_blankNotes (p : Program) (k : NodeId) : mark p.blankNotes k = none := by
  rw [mark, Program.blankNotes, Array.getElem?_replicate]
  split <;> rfl

/-- A program on its own is analyzed by walking its statements. -/
theorem notes_annotate (p : Program) :
    p.annotate.notes = ((start p).drain p ((Program.roots p.body).map (walk rootChain))).notes := by
  rw [Program.roots, ← stmts_eq]
  rfl

/-- The marks of a program are its violations, in the order of the walk. -/
theorem reports_annotate (hp : p.Formed) : ∃ rs, Reports p.blankNotes p.annotate.notes rs ∧
    ∀ k v, (k, v) ∈ rs ↔ ∃ around n, p.Located around n ∧ n.id = k ∧ p.Violates around n v := by
  have hlocated : ∀ c ∈ Program.roots p.body, p.Located [] c := by
    intro c hc
    obtain ⟨s, hs, rfl⟩ := List.mem_map.1 hc
    exact ⟨s, hs, .root⟩
  have hscope : p.bindings [] = [] ++ (Program.roots p.body).flatMap Node.vars ++ [] := by
    rw [Program.roots, flatMap_vars_stmt, List.nil_append, List.append_nil]
    rfl
  have hwalks := outcome_walks (fun c _ => faithful hp c) hlocated (fun c hc => stmt_ne_name hc)
    (stands_start p) hscope
  -- What is inside a top statement is what is located in the program.
  obtain ⟨rs, hreports, hmem⟩ := hwalks.reports
  rw [notes_annotate]
  refine ⟨rs, hreports, fun k v => ?_⟩
  rw [hmem]
  simp only [Program.roots, List.mem_map, exists_exists_and_eq_and, Program.Located]

end Analysis

/-- The marked nodes are those that break a rule, each with the rule that it breaks. -/
theorem Program.Formed.mark_annotate_iff (hp : p.Formed) :
    Analysis.mark p.annotate.notes k = some v ↔
      ∃ around n, p.Located around n ∧ n.id = k ∧ p.Violates around n v := by
  obtain ⟨rs, hreports, hmem⟩ := Analysis.reports_annotate hp
  have hsize : p.blankNotes.size = p.size := Array.size_replicate
  have hmark : k < p.size → Analysis.mark p.annotate.notes k = rs.lookup k := by
    intro hk
    rw [hreports.mark k (hsize.symm ▸ hk), Analysis.mark_blankNotes, Option.none_or]
  constructor
  · intro hv
    have hk : k < p.size := by
      obtain ⟨note, hnote, -⟩ := Option.bind_eq_some_iff.1 hv
      rw [← hsize, ← hreports.size]
      exact (Array.getElem?_eq_some_iff.1 hnote).1
    rw [hmark hk, List.lookup_eq_some_iff] at hv
    obtain ⟨before, after, rfl, -⟩ := hv
    exact (hmem k v).1 (List.mem_append_right _ List.mem_cons_self)
  · rintro ⟨around, n, hlocated, rfl, hv⟩
    rw [hmark (hp.id_lt hlocated.contains)]
    cases hlookup : rs.lookup n.id with
    | none =>
      have hnone := List.lookup_eq_none_iff.1 hlookup _
        ((hmem n.id v).2 ⟨around, n, hlocated, rfl, hv⟩)
      simp at hnone
    | some v' =>
      -- The first mark of the node is for the same place, and so for the same rule.
      obtain ⟨before, after, rfl, -⟩ := List.lookup_eq_some_iff.1 hlookup
      obtain ⟨outer, m, hm, hid, hv'⟩ :=
        (hmem n.id v').1 (List.mem_append_right _ List.mem_cons_self)
      obtain rfl := hp.indexed.eq_of_id hm.contains hlocated.contains hid
      obtain rfl := hm.unique hp hlocated
      rw [hv'.unique hv]

/-- The elements for which there is something to say, in order. -/
theorem map_fst_filterMap_sublist {α β : Type} (f : α → Option β) (xs : List α) :
    ((xs.filterMap fun x => (f x).map fun y => (x, y)).map Prod.fst).Sublist xs := by
  induction xs with
  | nil => exact .refl _
  | cons x xs ih =>
    rw [List.filterMap_cons]
    cases f x with
    | none => exact ih.cons x
    | some y => exact ih.cons_cons x

/-- The diagnostics of a text that parses. A node is marked if and only if it breaks a rule, and
then with that rule; the diagnostics are the nodes that break a rule in the order of the text, each
once, with the bytes of the node and the wording of the rule. -/
theorem Program.diagnostics_iff_violates {text : String} (hparse : parse text = .ok p) :
    (∀ k v, p.annotate.notes[k]?.bind Note.violation = some v ↔
      ∃ around n, p.Located around n ∧ n.id = k ∧ p.Violates around n v) ∧
    ∃ found : List (Node × Violation),
      (∀ n v, (n, v) ∈ found ↔ ∃ around, p.Located around n ∧ p.Violates around n v) ∧
      (found.map Prod.fst).Sublist p.preorder ∧ p.preorder.Nodup ∧
      (CheckedText.ofText text).diagnostics =
        found.map fun f => ⟨.ofSpan text f.1.span, f.2.message⟩ := by
  have hp : p.Formed := formed_of_parse hparse
  have hmark : ∀ k v, p.annotate.notes[k]?.bind Note.violation = some v ↔
      ∃ around n, p.Located around n ∧ n.id = k ∧ p.Violates around n v :=
    fun k v => hp.mark_annotate_iff
  -- The marked nodes in the order of the text, each with its mark.
  refine ⟨hmark, p.preorder.filterMap fun n =>
    (p.annotate.notes[n.id]?.bind Note.violation).map fun v => (n, v), ?_, ?_, ?_, ?_⟩
  · intro n v
    simp only [List.mem_filterMap, Option.map_eq_some_iff, Prod.mk.injEq]
    constructor
    · rintro ⟨m, hm, v', hv, rfl, rfl⟩
      obtain ⟨around, n, hlocated, hid, hbroken⟩ := (hmark _ _).1 hv
      obtain rfl := hp.indexed.eq_of_id hlocated.contains (mem_preorder_iff.1 hm) hid
      exact ⟨around, hlocated, hbroken⟩
    · rintro ⟨around, hlocated, hbroken⟩
      exact ⟨n, mem_preorder_iff.2 hlocated.contains, v,
        (hmark _ _).2 ⟨around, n, hlocated, rfl, hbroken⟩, rfl, rfl⟩
  · exact map_fst_filterMap_sublist _ _
  · exact (Node.preorder_perm _).symm.nodup (List.Nodup.of_map _ hp.nodup_ids)
  · rw [CheckedText.ofText, hparse, List.map_filterMap]
    simp only [Option.map_map]
    rfl

theorem scan_redeclaration : Lexeme.scan "var a;var a;" = .ok
    [⟨.keyword .varWord, ⟨0, 3⟩⟩, ⟨.identifier "a", ⟨4, 5⟩⟩, ⟨.symbol .semicolon, ⟨5, 6⟩⟩,
      ⟨.keyword .varWord, ⟨6, 9⟩⟩, ⟨.identifier "a", ⟨10, 11⟩⟩,
      ⟨.symbol .semicolon, ⟨11, 12⟩⟩] := by
  decide +kernel

set_option maxRecDepth 4000 in
/-- A program that declares a variable twice. -/
theorem parse_redeclaration : (Program.parse "var a;var a;").toOption.map (·.body) = some
    [.declare ⟨1, ⟨0, 6⟩⟩ ⟨⟨0, ⟨4, 5⟩⟩, "a", .variable⟩ none,
      .declare ⟨3, ⟨6, 12⟩⟩ ⟨⟨2, ⟨10, 11⟩⟩, "a", .variable⟩ none] := by
  rw [Program.parse, scan_redeclaration]
  cbv

/-- The second declaration of a variable is reported. -/
theorem diagnostics_iff_violates_redeclaration :
    ∃ p, Program.parse "var a;var a;" = .ok p ∧
      ∃ d ∈ (CheckedText.ofText "var a;var a;").diagnostics,
        d.message = (Violation.duplicateDeclaration "a").message := by
  have hbody := parse_redeclaration
  cases hparse : Program.parse "var a;var a;" with
  | error e =>
    rw [hparse] at hbody
    cases hbody
  | ok p =>
    rw [hparse] at hbody
    have hbody : p.body = _ := Option.some.inj hbody
    obtain ⟨-, found, hfound, -, -, hdiagnostics⟩ := Program.diagnostics_iff_violates hparse
    have hlocated : p.Located []
        (.stmt (.declare ⟨3, ⟨6, 12⟩⟩ ⟨⟨2, ⟨10, 11⟩⟩, "a", .variable⟩ none)) := by
      refine ⟨_, ?_, .root⟩
      rw [hbody]
      exact List.mem_cons_of_mem _ List.mem_cons_self
    have hscope : p.bindings [] = [⟨⟨0, ⟨4, 5⟩⟩, "a", .variable⟩] ++
        ⟨⟨2, ⟨10, 11⟩⟩, "a", .variable⟩ :: [] := by
      rw [Program.bindings, hbody]
      rfl
    have hmem := (hfound _ _).2 ⟨_, hlocated.child List.mem_cons_self,
      .duplicateDeclaration hscope List.mem_cons_self rfl⟩
    rw [hdiagnostics]
    exact ⟨p, rfl, _, List.mem_map_of_mem hmem, rfl⟩

end LWorkbench
