import LWorkbench.Proofs.Layout
import LWorkbench.Proofs.Relocation.Analysis
import LWorkbench.Proofs.Relocation.Machine
import LWorkbench.Proofs.Relocation.Phrases
import LWorkbench.Proofs.Tokens.Spacing

/-!
# Programs with other gaps

The words of a program may be written down with other blanks between them. The same words are read
then, at other places, and no two words begin or end at the same place, so there is a relocation
that takes each word to where it stands now. The program that is parsed is the moved one. Analysis
finds the same about it, and a machine makes the same steps.

## Main results

* `Lexeme.exists_relocation` — the same words at other places
* `Program.layout_does_not_matter` — a program with other gaps
-/

namespace LWorkbench

namespace Lexeme

/-- The same words at other places are the moved words. -/
theorem exists_relocation {words words' : List Lexeme} (hwords : Ordered words)
    (htokens : words'.map (·.token) = words.map (·.token)) :
    ∃ r : Relocation, words' = words.map (·.relocate r) := by
  induction words generalizing words' with
  | nil => exact ⟨⟨id, id⟩, List.map_eq_nil_iff.1 htokens⟩
  | cons l words ih =>
    obtain ⟨l', words', rfl, htoken, htokens⟩ := List.map_eq_cons_iff.1 htokens
    obtain ⟨r, rfl⟩ := ih (hwords.sublist (List.sublist_cons_self l words)) htokens
    -- The first word begins and ends in front of the others, so it can be moved on its own.
    refine ⟨⟨Function.update r.start l.span.start l'.span.start,
      Function.update r.stop l.span.stop l'.span.stop⟩, ?_⟩
    have hmoved : ∀ m ∈ words, m.relocate r = m.relocate
        ⟨Function.update r.start l.span.start l'.span.start,
          Function.update r.stop l.span.stop l'.span.stop⟩ := fun m hm => by
      have hnext := List.rel_of_pairwise_cons hwords.apart hm
      have hl := hwords.nonempty l List.mem_cons_self
      have hnonempty := hwords.nonempty m (List.mem_cons_of_mem l hm)
      have hstart : m.span.start ≠ l.span.start := by omega
      have hstop : m.span.stop ≠ l.span.stop := by omega
      simp only [relocate, Span.relocate, Function.update_of_ne hstart, Function.update_of_ne hstop]
    rw [List.map_cons, List.map_congr_left hmoved]
    congr
    simp [relocate, Span.relocate, ← htoken]

end Lexeme

namespace Program

variable {text : String} {p : Program} {words : List Lexeme} {gap : Nat → List Char}

/-- A program may be laid out in another way: its words with other blanks in front of them, between
them and behind them are the same words, and they are parsed to the same program, whose nodes
begin and end at the same words. Analysis writes the same notes about it and makes the same scopes,
and a machine makes the same steps. -/
theorem layout_does_not_matter (hparse : parse text = .ok p)
    (hscan : Lexeme.scan text = .ok words) (hgap : Separates gap words.length) :
    ∃ words' r,
      Lexeme.scan (respaced gap text words) = .ok words' ∧
      words'.map (·.token) = words.map (·.token) ∧
      parse (respaced gap text words) = .ok (p.relocate r) ∧
      (p.relocate r).body.map Stmt.id = p.body.map Stmt.id ∧
      (∀ id, (p.relocate r).node? id = (p.node? id).map (·.relocate r) ∧
        (p.relocate r).children id = p.children id ∧
        (p.relocate r).parent? id = p.parent? id) ∧
      (∀ n ∈ p.nodes, ∃ first last : Nat,
        words[first]?.map (·.span.start) = some n.span.start ∧
        words'[first]?.map (·.span.start) = some (n.relocate r).span.start ∧
        words[last]?.map (·.span.stop) = some n.span.stop ∧
        words'[last]?.map (·.span.stop) = some (n.relocate r).span.stop) ∧
      (p.relocate r).annotate = { p.annotate with program := p.relocate r } ∧
      (∀ notes store env, (p.relocate r).annotateFrom notes store env =
        { p.annotateFrom notes store env with program := p.relocate r }) ∧
      ∀ (m : Machine) (steps : Nat),
        (m.load (p.relocate r)).after steps = ((m.load p).after steps).relocate r ∧
        ((m.load (p.relocate r)).after steps).step.2 = ((m.load p).after steps).step.2 := by
  obtain ⟨words', hscan', htokens⟩ := Lexeme.exists_scan_respaced hscan hgap
  obtain ⟨r, rfl⟩ := Lexeme.exists_relocation (Lexeme.ordered_of_scan hscan) htokens
  refine ⟨_, r, hscan', htokens, parse_relocate hparse hscan hscan', p.ids_body_relocate,
    fun id => ?_, fun n hn => ?_, p.annotate_relocate, p.annotateFrom_relocate, fun m steps => ?_⟩
  · exact ⟨p.node?_relocate id, p.nodes_inside_relocate id, p.parent?_relocate id⟩
  · obtain ⟨words', hwords', hspread⟩ := spread_of_parse hparse
    obtain rfl : words = words' := Except.ok.inj (hscan.symm.trans hwords')
    have hn : n ∈ Node.postorder (roots p.body) :=
      contains_iff_mem.1 ((formed_of_parse hparse).mem_nodes_iff.1 hn)
    obtain ⟨l, hl, hstart⟩ := hspread.starts n hn
    obtain ⟨l', hl', hstop⟩ := hspread.stops n hn
    obtain ⟨first, hfirst⟩ := List.mem_iff_getElem?.1 hl
    obtain ⟨last, hlast⟩ := List.mem_iff_getElem?.1 hl'
    refine ⟨first, last, ?_, ?_, ?_, ?_⟩
    all_goals simp [hfirst, hlast, hstart, hstop, Node.span_relocate, Lexeme.relocate, Span.relocate]
  · have hafter := Machine.after_load_relocate (r := r) m p steps
    refine ⟨hafter, ?_⟩
    rw [hafter, Machine.step_relocate]
    rfl

theorem scan_comment_behind : Lexeme.scan "x;//c" =
    .ok [⟨.identifier "x", ⟨0, 1⟩⟩, ⟨.symbol .semicolon, ⟨1, 2⟩⟩] := by
  decide +kernel

set_option maxRecDepth 4000 in
theorem parse_comment_behind : (parse "x;//c").toOption.map (·.body) = some
    [.evaluate ⟨1, ⟨0, 2⟩⟩ (.name ⟨⟨0, ⟨0, 1⟩⟩, "x", .variable⟩)] := by
  rw [parse, scan_comment_behind]
  cbv

/-- A statement whose semicolon is put on the next line. -/
theorem layout_does_not_matter_broken : ∃ p q, parse "x;//c" = .ok p ∧ parse "x\n;" = .ok q ∧
    p.body ≠ [] ∧ q.body.map Stmt.id = p.body.map Stmt.id ∧
    ∀ (m : Machine) (steps : Nat),
      ((m.load q).after steps).step.2 = ((m.load p).after steps).step.2 := by
  obtain ⟨p, hparse, hbody⟩ := exists_of_parse_body parse_comment_behind
  have hgap : Separates (fun i => if i = 1 then ['\n'] else []) 2 := by
    refine ⟨fun i c hc => ?_, fun i hpos hlt => ?_⟩
    · split at hc
      · obtain rfl := List.mem_singleton.1 hc
        decide
      · cases hc
    · obtain rfl : i = 1 := by omega
      exact List.cons_ne_nil _ _
  have htext : respaced (fun i => if i = 1 then ['\n'] else []) "x;//c"
      [⟨.identifier "x", ⟨0, 1⟩⟩, ⟨.symbol .semicolon, ⟨1, 2⟩⟩] = "x\n;" := by
    decide
  obtain ⟨words', r, -, -, hparse', hids, -, -, -, -, hruns⟩ :=
    layout_does_not_matter hparse scan_comment_behind hgap
  rw [htext] at hparse'
  exact ⟨p, p.relocate r, hparse, hparse', by simp [hbody], hids, fun m steps => (hruns m steps).2⟩

end Program

end LWorkbench
