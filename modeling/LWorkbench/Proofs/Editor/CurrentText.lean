import LWorkbench.Proofs.Editor.Occurrences
import LWorkbench.Proofs.Editor.Results
import LWorkbench.Proofs.Editor.Undoing
import Mathlib.Data.Set.Function

/-!
# Answers for the current text

A workspace keeps the text of a document and the result for it in two places, and a text with the
hash of the last one is not checked again. What a client has told determines the text of every
document. As long as the texts differ in their hashes, the result that is kept is the one of that
text, so a question is answered as if the text were parsed and analyzed for it.

## Main definitions

* `Dialogue` — what a client has told; `Dialogue.workspace` — the workspace after it
* `Dialogue.text?`, `Dialogue.texts` — the text of a document after it, and all texts on the way
* `Question.answerFrom` — the answer to a question from a text alone
* `Workspace.HasText` — the text of a document is known in both places

## Main results

* `Workspace.HasText.notify` — one notice changes the text as it says, in both places
* `Dialogue.text?_changed` — edits that are told splice the text, and can be taken back
* `Dialogue.answers_for_current_text` — what is kept, and what is answered
-/

namespace LWorkbench

theorem CheckedText.program_ofText_eq_none_iff {text : String} :
    (ofText text).program = none ↔ ∃ e, Program.parse text = .error e := by
  unfold ofText
  cases Program.parse text <;> simp

/-! ### Texts and answers -/

/-- The text of a document after a notice, where `text` is the one before. A document that is not
open has no text. -/
def Notice.textOf (uri : Uri) (text : Option String) : Notice → Option String
  | ready => text
  | opened other document => if other = uri then some document.content else text
  | changed _ _ [] => text
  | changed other _ (edit :: edits) =>
    if other = uri then some (Edit.applyAll (text.getD "") (edit :: edits)) else text
  | closed other => if other = uri then none else text
  | configurationChanged => text

/-- The edits that a client tells change the text one after the other. -/
theorem Notice.textOf_changed (uri : Uri) (content : String) (version : Int) (edits : List Edit) :
    (changed uri version edits).textOf uri (some content) =
      some (Edit.applyAll content edits) := by
  cases edits with
  | nil => rw [textOf, Edit.applyAll_nil]
  | cons edit edits => exact if_pos rfl

/-- The document that a question is about. -/
def Question.uri : Question → Uri
  | hover uri _ => uri
  | definition uri _ => uri
  | references uri _ _ => uri
  | highlights uri _ => uri
  | symbols uri => uri
  | diagnostics uri => uri

/-- The answer from a text that is parsed and analyzed for it, `null` when there is no text or it
does not parse. -/
def Question.fromScratch (text : Option String) (answer : Annotated → String → Json) : Json :=
  match text with
  | none => .null
  | some text =>
    match Program.parse text with
    | .ok p => answer p.annotate text
    | .error _ => .null

/-- The answer to a question from nothing but the text of the document and the settings. -/
def Question.answerFrom (text : Option String) (settings : Settings) : Question → Json
  | hover _ caret => fromScratch text fun a text => Json.ofOption Hover.toJson (a.hover? text caret)
  | definition uri caret => fromScratch text fun a text =>
    Json.ofOption (TextRange.locationJson uri) (a.definition? text caret)
  | references uri caret withDefinition => fromScratch text fun a text =>
    Workspace.listOrNull (TextRange.locationJson uri) (a.references text caret withDefinition)
  | highlights _ caret => fromScratch text fun a text =>
    Workspace.listOrNull Highlight.toJson (a.highlights text caret)
  | symbols _ => fromScratch text fun a text =>
    Workspace.listOrNull DocumentSymbol.toJson (a.symbols text)
  | diagnostics _ =>
    let all := (text.map fun text => (CheckedText.ofText text).diagnostics).getD []
    .record [("kind", "full"), ("items", .ofList Diagnostic.toJson (settings.filter all))]

namespace Workspace

variable {w : Workspace} {uri : Uri} {text : Option String}

/-! ### One notice -/

/-- The text of a document is its content, and what is kept for the document was made from it; a
document without a text is neither open nor known. -/
structure HasText (w : Workspace) (uri : Uri) (text : Option String) : Prop where
  content : (w.documents.get? uri).map Document.content = text
  checked : (w.cache.entries.get? uri).map CacheEntry.checked = text.map CheckedText.ofText
  hash : (w.cache.entries.get? uri).map CacheEntry.hash = text.map contentHash

/-- Setting a document and checking it sets the document and its result. -/
theorem refresh_insert (w : Workspace) (uri : Uri) (document : Document) :
    ({ w with documents := w.documents.insert uri document }.refresh uri).1 =
      { w with
        documents := w.documents.insert uri document
        cache := (w.cache.recompute uri document.content).1 } := by
  simp only [refresh, UriMap.get?_insert_self]

/-- A document that is set and checked has its content as text, provided that the text before has
another hash unless it is the same. -/
theorem HasText.refresh_self (h : w.HasText uri text) (document : Document)
    (hhash : ∀ old, text = some old → contentHash old = contentHash document.content →
      old = document.content) :
    ({ w with documents := w.documents.insert uri document }.refresh uri).1.HasText uri
      (some document.content) := by
  rw [refresh_insert]
  have hcontent : ((w.documents.insert uri document).get? uri).map Document.content =
      some document.content := by
    rw [UriMap.get?_insert_self, Option.map_some]
  obtain ⟨entry, hget, hentry, heq⟩ | ⟨-, heq⟩ :=
    w.cache.recompute_cases uri document.content
  · -- Nothing was checked: the text is the one that was checked last.
    have hchecked := h.checked
    have hold := h.hash
    rw [hget] at hchecked hold
    obtain ⟨old, rfl, hsame⟩ := Option.map_eq_some_iff.1 hold.symm
    obtain rfl : old = document.content := hhash old rfl (hsame.trans hentry)
    exact ⟨hcontent, by rw [heq, hget, hchecked], by rw [heq, hget, hold]⟩
  · refine ⟨hcontent, ?_, ?_⟩ <;>
      rw [heq, UriMap.get?_insert_self, Option.map_some, Option.map_some]

/-- Setting and checking one document leaves the texts of the others. -/
theorem HasText.refresh_of_ne (h : w.HasText uri text) {other : Uri} (document : Document)
    (hne : other ≠ uri) :
    ({ w with documents := w.documents.insert other document }.refresh other).1.HasText uri
      text := by
  rw [refresh_insert]
  have hget : (w.cache.recompute other document.content).1.entries.get? uri =
      w.cache.entries.get? uri := Cache.get?_recompute_of_ne hne.symm
  exact ⟨by rw [UriMap.get?_insert_of_ne _ _ hne.symm, h.content], by rw [hget, h.checked],
    by rw [hget, h.hash]⟩

/-- A notice changes the text of a document as it says, provided that the text before has another
hash unless it stays the same. -/
theorem HasText.notify (h : w.HasText uri text) (answer : Option (List Json)) (notice : Notice)
    (hhash : ∀ old new, text = some old → notice.textOf uri text = some new →
      contentHash old = contentHash new → old = new) :
    (w.notify answer notice).1.HasText uri (notice.textOf uri text) := by
  cases notice with
  | ready => exact ⟨h.content, h.checked, h.hash⟩
  | configurationChanged => exact ⟨h.content, h.checked, h.hash⟩
  | opened other document =>
    by_cases hother : other = uri
    · subst hother
      rw [Notice.textOf, if_pos rfl] at hhash ⊢
      exact h.refresh_self document fun old hold => hhash old _ hold rfl
    · rw [Notice.textOf, if_neg hother]
      exact h.refresh_of_ne document hother
  | changed other version edits =>
    cases edits with
    | nil => exact h
    | cons edit edits =>
      by_cases hother : other = uri
      · subst hother
        rw [Notice.textOf, if_pos rfl] at hhash ⊢
        -- The edits start from the content of the document, which is the text.
        rw [← h.content] at hhash ⊢
        exact h.refresh_self _ fun old hold => hhash old _ (h.content.trans hold) rfl
      · rw [Notice.textOf, if_neg hother]
        exact h.refresh_of_ne _ hother
  | closed other =>
    by_cases hother : other = uri
    · subst hother
      rw [Notice.textOf, if_pos rfl]
      constructor <;> exact congrArg (Option.map _) (UriMap.get?_erase_self _ _)
    · rw [Notice.textOf, if_neg hother]
      have hentries : (w.cache.evict other).entries.get? uri = w.cache.entries.get? uri :=
        UriMap.get?_erase_of_ne _ (Ne.symm hother)
      exact ⟨by rw [Workspace.notify, UriMap.get?_erase_of_ne _ (Ne.symm hother), h.content],
        by rw [Workspace.notify, hentries, h.checked], by rw [Workspace.notify, hentries, h.hash]⟩

/-! ### Questions -/

/-- What is kept for a document with a text. -/
theorem HasText.exists_entry {content : String} (h : w.HasText uri (some content)) :
    ∃ entry, w.cache.entries.get? uri = some entry ∧
      entry.checked = CheckedText.ofText content := by
  obtain ⟨entry, hget, hchecked⟩ := Option.map_eq_some_iff.1 h.checked
  exact ⟨entry, hget, hchecked⟩

theorem HasText.entry_none (h : w.HasText uri none) : w.cache.entries.get? uri = none :=
  Option.map_eq_none_iff.1 h.checked

/-- Answers from what is kept are answers from the text. -/
theorem HasText.withProgram (h : w.HasText uri text) (answer : Annotated → String → Json) :
    w.withProgram uri answer = Question.fromScratch text answer := by
  unfold Workspace.withProgram Cache.snapshot? Question.fromScratch
  cases text with
  | none => rw [h.entry_none, Option.bind_none]
  | some content =>
    obtain ⟨entry, hget, hchecked⟩ := h.exists_entry
    rw [hget, Option.bind_some, hchecked, CheckedText.text_ofText, CheckedText.ofText]
    dsimp only
    cases Program.parse content <;> rfl

/-- The diagnostics that are kept are those of the text. -/
theorem HasText.diagnostics (h : w.HasText uri text) : w.cache.diagnostics uri =
    (text.map fun text => (CheckedText.ofText text).diagnostics).getD [] := by
  unfold Cache.diagnostics
  cases text with
  | none => rw [h.entry_none, Option.map_none, Option.map_none]
  | some content =>
    obtain ⟨entry, hget, hchecked⟩ := h.exists_entry
    rw [hget, Option.map_some, Option.map_some, hchecked]

/-- Questions are answered from the text of the document they are about. -/
theorem HasText.answer {question : Question} (h : w.HasText question.uri text) :
    w.answer question = question.answerFrom text w.settings := by
  cases question with
  | hover uri caret => exact h.withProgram _
  | definition uri caret => exact h.withProgram _
  | references uri caret withDefinition => exact h.withProgram _
  | highlights uri caret => exact h.withProgram _
  | symbols uri => exact h.withProgram _
  | diagnostics uri =>
    have hdiagnostics : w.cache.diagnostics uri = _ := h.diagnostics
    rw [Workspace.answer, Workspace.currentDiagnostics, hdiagnostics]
    rfl

end Workspace

/-! ### A series of notices -/

/-- What a client has told, one notice after the other, each with the client's answer to a request
for its configuration. -/
abbrev Dialogue := List (Notice × Option (List Json))

namespace Dialogue

variable {dialogue : Dialogue} {uri : Uri}

/-- The workspace after a dialogue. -/
def workspace (dialogue : Dialogue) : Workspace :=
  dialogue.foldl (fun w told => (w.notify told.2 told.1).1) .empty

/-- The text of a document after a dialogue. -/
def text? (dialogue : Dialogue) (uri : Uri) : Option String :=
  dialogue.foldl (fun text told => told.1.textOf uri text) none

/-- The texts that documents have at some time in a dialogue. -/
def texts (dialogue : Dialogue) : Set String :=
  {text | ∃ earlier uri, earlier <+: dialogue ∧ text? earlier uri = some text}

theorem workspace_concat (dialogue : Dialogue) (told : Notice × Option (List Json)) :
    workspace (dialogue ++ [told]) = (dialogue.workspace.notify told.2 told.1).1 :=
  List.foldl_concat ..

theorem text?_concat (dialogue : Dialogue) (told : Notice × Option (List Json)) (uri : Uri) :
    text? (dialogue ++ [told]) uri = told.1.textOf uri (dialogue.text? uri) :=
  List.foldl_concat ..

/-- What a client tells about the text of a document. An edit of a range puts the replacement between
what is in front of the range and what is behind it, whatever carets the range has. And edits are
taken back by telling their inverses. -/
theorem text?_changed {content : String} (htext : dialogue.text? uri = some content)
    (version : Int) (answer : Option (List Json)) :
    (∀ range replacement, ∃ front removed back, Edit.Splices content range front removed back ∧
      text? (dialogue ++ [(.changed uri version [⟨some range, replacement⟩], answer)]) uri =
        some (String.ofList (front ++ replacement.toList ++ back))) ∧
    ∀ edits later asked, text? (dialogue ++ [(.changed uri version edits, answer)] ++
      [(.changed uri later (Edit.inverses content edits), asked)]) uri = some content := by
  refine ⟨fun range replacement => ?_, fun edits later asked => ?_⟩
  · obtain ⟨front, removed, back, hsplices⟩ := Edit.exists_splices content range
    refine ⟨front, removed, back, hsplices, ?_⟩
    rw [text?_concat, htext, Notice.textOf_changed, Edit.applyAll_cons, Edit.applyAll_nil,
      ← hsplices.toList_apply, String.ofList_toList]
  · rw [text?_concat, text?_concat, htext, Notice.textOf_changed, Notice.textOf_changed,
      Edit.applyAll_inverses]

/-- Texts at some time in the beginning of a dialogue are texts at some time in it. -/
theorem texts_mono {earlier : Dialogue} (h : earlier <+: dialogue) :
    texts earlier ⊆ texts dialogue := by
  rintro text ⟨first, uri, hfirst, htext⟩
  exact ⟨first, uri, hfirst.trans h, htext⟩

/-- After a dialogue whose texts differ in their hashes, the text of every document is known in both
places. -/
theorem hasText_workspace (hhash : Set.InjOn contentHash dialogue.texts) (uri : Uri) :
    dialogue.workspace.HasText uri (dialogue.text? uri) := by
  induction dialogue using List.reverseRecOn with
  | nil => exact ⟨rfl, rfl, rfl⟩
  | append_singleton dialogue told ih =>
    have hearlier : dialogue <+: dialogue ++ [told] := List.prefix_append _ _
    rw [workspace_concat, text?_concat]
    apply (ih (hhash.mono (texts_mono hearlier))).notify
    -- The texts before and after the last notice are both texts of the whole dialogue.
    intro old new hold hnew
    apply hhash
    · exact ⟨dialogue, uri, hearlier, hold⟩
    · exact ⟨dialogue ++ [told], uri, List.prefix_rfl, by rw [text?_concat, hnew]⟩

/-- A workspace always answers for the current text. After every dialogue whose texts differ in
their hashes, the content of a document is its text, a document is open if and only if something is
kept for it, and what is kept is the text itself, its program, which is missing if and only if the
text does not parse, and its diagnostics. So every question is answered as from the text alone. -/
theorem answers_for_current_text (dialogue : Dialogue)
    (hhash : Set.InjOn contentHash dialogue.texts) :
    let w := dialogue.workspace
    (∀ uri, (w.documents.get? uri).map Document.content = dialogue.text? uri) ∧
    (∀ uri, (∃ document, w.documents.get? uri = some document) ↔
      ∃ entry, w.cache.entries.get? uri = some entry) ∧
    (∀ uri document entry, w.documents.get? uri = some document →
      w.cache.entries.get? uri = some entry →
      entry.checked.text = document.content ∧
      (∀ a, entry.checked.program = some a ↔
        ∃ p, Program.parse document.content = .ok p ∧ a = p.annotate) ∧
      (entry.checked.program = none ↔ ∃ e, Program.parse document.content = .error e) ∧
      entry.checked.diagnostics = (CheckedText.ofText document.content).diagnostics) ∧
    ∀ question, w.answer question =
      question.answerFrom (dialogue.text? question.uri) w.settings := by
  intro w
  have h uri := hasText_workspace hhash uri
  refine ⟨fun uri => (h uri).content, fun uri => ?_, fun uri document entry hdocument hentry => ?_,
    fun question => (h question.uri).answer⟩
  · have hopen : (w.documents.get? uri).isSome = (dialogue.text? uri).isSome := by
      rw [← (h uri).content, Option.isSome_map]
    have hkept : (w.cache.entries.get? uri).isSome = (dialogue.text? uri).isSome := by
      rw [← Option.isSome_map, (h uri).checked, Option.isSome_map]
    rw [← Option.isSome_iff_exists, ← Option.isSome_iff_exists, hopen, hkept]
  · have hchecked := (h uri).checked
    rw [← (h uri).content, hdocument, hentry, Option.map_some, Option.map_some, Option.map_some,
      Option.some_inj] at hchecked
    rw [hchecked]
    exact ⟨CheckedText.text_ofText _, fun a => CheckedText.program_ofText_eq_some_iff,
      CheckedText.program_ofText_eq_none_iff, rfl⟩

/-- A document that is opened, edited and opened again as it is. -/
theorem answers_for_current_text_reopened :
    let uri : Uri := ⟨"untitled", none, "a", none, none⟩
    let dialogue : Dialogue := [(.opened uri ⟨"a;", 1⟩, none),
      (.changed uri 2 [⟨some ⟨⟨0, 0⟩, ⟨0, 1⟩⟩, "b"⟩], none), (.opened uri ⟨"b;", 3⟩, none)]
    Set.InjOn contentHash dialogue.texts ∧
    dialogue.text? uri = some "b;" ∧
    ∀ question, question.uri = uri → dialogue.workspace.answer question =
      question.answerFrom (some "b;") dialogue.workspace.settings := by
  intro uri dialogue
  have htext : dialogue.text? uri = some "b;" := by decide
  -- Only two texts ever come up, so their hashes are compared at once.
  have htexts : dialogue.texts ⊆ {"a;", "b;"} := by
    rintro text ⟨earlier, other, hearlier, hsome⟩
    rw [← List.mem_inits] at hearlier
    by_cases hother : other = uri
    · subst hother
      have hall : ∀ earlier ∈ dialogue.inits,
          text? earlier uri ∈ [none, some "a;", some "b;"] := by decide
      simpa [hsome] using hall earlier hearlier
    · have hnone : ∀ earlier ∈ dialogue.inits, text? earlier other = none := by
        simp [dialogue, text?, Notice.textOf, Ne.symm hother]
      cases hsome.symm.trans (hnone earlier hearlier)
  have hhash : Set.InjOn contentHash dialogue.texts := by
    refine Set.InjOn.mono htexts (Set.injOn_pair.2 fun h => ?_)
    exact absurd h (by decide)
  refine ⟨hhash, htext, fun question huri => ?_⟩
  rw [(answers_for_current_text dialogue hhash).2.2.2 question, huri, htext]

end Dialogue

end LWorkbench
