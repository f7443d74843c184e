import LWorkbench.Proofs.Editor.CurrentText

/-!
# What a client sees

A client sees the diagnostics of a document that were published last. They are made from what is
kept for the document and from the settings, and are published again when a new result is made and
when the client tells that its configuration has changed. Settings that are read because the client
is ready are not: a document that is open by then is still shown by the settings from before, until
one of the other two happens.

## Main definitions

* `Outgoing.last?` — the diagnostics of a document that were published last
* `Dialogue.sent`, `Dialogue.shown?` — what is sent in a dialogue, and what the client sees after it
* `Dialogue.Missed` — new settings were not shown
* `Workspace.Shows` — the diagnostics of a document are shown by given settings

## Main results

* `Workspace.Shows.notify` — what one notice does to what is shown
* `Dialogue.shown_by_settings` — what a client sees after any dialogue
-/

namespace LWorkbench

namespace Outgoing

variable {uri : Uri} {messages : List Outgoing}

/-- The diagnostics that a message publishes for a document. -/
def diagnosticsFor? (uri : Uri) : Outgoing → Option (List Diagnostic)
  | publish other diagnostics _ => if other = uri then some diagnostics else none
  | _ => none

/-- The diagnostics of a document that were published last. -/
def last? (uri : Uri) (messages : List Outgoing) : Option (List Diagnostic) :=
  (messages.filterMap (diagnosticsFor? uri)).getLast?

theorem last?_append (uri : Uri) (messages later : List Outgoing) :
    last? uri (messages ++ later) = (last? uri later).or (last? uri messages) := by
  rw [last?, List.filterMap_append, List.getLast?_append, last?, last?]

/-- When all messages for a document publish the same, that is what is published last. -/
theorem last?_eq_some {diagnostics : List Diagnostic}
    (hsame : ∀ message ∈ messages, ∀ other, message.diagnosticsFor? uri = some other →
      other = diagnostics)
    (hexists : ∃ message ∈ messages, (message.diagnosticsFor? uri).isSome = true) :
    last? uri messages = some diagnostics := by
  cases hlast : last? uri messages with
  | none =>
    have hnil := List.filterMap_eq_nil_iff.1 (List.getLast?_eq_none_iff.1 hlast)
    obtain ⟨message, hmessage, hsome⟩ := hexists
    rw [hnil message hmessage] at hsome
    cases hsome
  | some other =>
    obtain ⟨message, hmessage, hother⟩ := List.mem_filterMap.1 (List.mem_of_getLast? hlast)
    rw [hsame message hmessage other hother]

end Outgoing

/-- The number of what is kept is the latest one. -/
theorem Cache.isLatest_of_get? {cache : Cache} {uri : Uri} {entry : CacheEntry}
    (h : cache.entries.get? uri = some entry) : cache.isLatest uri entry.seq = true :=
  isLatest_iff.2 (by rw [h, Option.map_some])

namespace Workspace

variable {w : Workspace} {uri other : Uri} {shown : Option (List Diagnostic)} {settings : Settings}

/-- A document is open. -/
def IsOpen (w : Workspace) (uri : Uri) : Prop := (w.documents.get? uri).isSome = true

/-! ### What is published -/

/-- A result that is still the latest is published by the settings. -/
theorem publish_eq {result : Recomputed} {version : Int}
    (h : w.cache.isLatest uri result.seq = true) :
    w.publish uri result version =
      [.publish uri (w.settings.filter result.diagnostics) (some version)] :=
  if_pos h

/-- What is published for all documents has for each of them its current diagnostics. -/
theorem diagnosticsFor?_republish {message : Outgoing} (h : message ∈ w.republish)
    {diagnostics : List Diagnostic} (hmessage : message.diagnosticsFor? uri = some diagnostics) :
    diagnostics = w.currentDiagnostics uri := by
  obtain ⟨⟨key, document⟩, -, h⟩ := List.mem_flatMap.1 h
  dsimp only at h
  cases hcurrent : w.cache.current? key with
  | none =>
    rw [hcurrent] at h
    cases h
  | some result =>
    obtain ⟨entry, hget, rfl⟩ := Option.map_eq_some_iff.1 hcurrent
    rw [hcurrent] at h
    dsimp only at h
    rw [publish_eq (Cache.isLatest_of_get? hget), List.mem_singleton] at h
    rw [h, Outgoing.diagnosticsFor?] at hmessage
    obtain ⟨rfl, rfl⟩ : key = uri ∧ _ := by simpa using hmessage
    rw [currentDiagnostics, Cache.diagnostics, hget]
    rfl

/-- An open document that has a result is among all documents. -/
theorem exists_mem_republish (hopen : w.IsOpen uri) {entry : CacheEntry}
    (hget : w.cache.entries.get? uri = some entry) :
    ∃ message ∈ w.republish, (message.diagnosticsFor? uri).isSome = true := by
  obtain ⟨document, hdocument⟩ := Option.isSome_iff_exists.1 hopen
  obtain ⟨⟨key, document'⟩, hfind, rfl⟩ := Option.map_eq_some_iff.1 hdocument
  have hkey : key = uri := by simpa using List.find?_some hfind
  subst hkey
  refine ⟨.publish key (w.settings.filter entry.checked.diagnostics) (some document'.version),
    List.mem_flatMap.2 ⟨(key, document'), List.mem_of_find?_eq_some hfind, ?_⟩, ?_⟩
  · dsimp only
    rw [Cache.current?, hget, Option.map_some]
    dsimp only
    rw [publish_eq (Cache.isLatest_of_get? hget)]
    exact List.mem_singleton_self _
  · rw [Outgoing.diagnosticsFor?, if_pos rfl]
    rfl

/-! ### One notice -/

/-- A document is open when something is kept for it, and then its diagnostics are shown as the
given settings have it. For a document that is not open nothing is shown. -/
structure Shows (w : Workspace) (uri : Uri) (shown : Option (List Diagnostic))
    (settings : Settings) : Prop where
  open_iff : w.IsOpen uri ↔ (w.cache.entries.get? uri).isSome = true
  known : ∀ entry, w.cache.entries.get? uri = some entry →
    shown = some (settings.filter entry.checked.diagnostics)
  unknown : w.cache.entries.get? uri = none → shown = none ∨ shown = some []

/-- What is shown of a document that is not open does not depend on the settings. -/
theorem Shows.of_not_isOpen (h : w.Shows uri shown settings) (hclosed : ¬ w.IsOpen uri)
    (other : Settings) : w.Shows uri shown other := by
  refine ⟨h.open_iff, fun entry hget => absurd (h.open_iff.2 ?_) hclosed, h.unknown⟩
  rw [hget]
  rfl

/-- What is shown of a document stays when nothing about it changes. -/
theorem Shows.congr {w' : Workspace} (h : w.Shows uri shown settings)
    (hdocument : (w'.documents.get? uri).isSome = (w.documents.get? uri).isSome)
    (hentry : w'.cache.entries.get? uri = w.cache.entries.get? uri) :
    w'.Shows uri shown settings := by
  refine ⟨?_, ?_, ?_⟩
  · rw [IsOpen, hdocument, hentry]
    exact h.open_iff
  · rw [hentry]
    exact h.known
  · rw [hentry]
    exact h.unknown

/-- Setting and checking a document publishes it only if there is a new result. -/
theorem refresh_insert_cases (w : Workspace) (uri : Uri) (document : Document) :
    let refreshed := { w with documents := w.documents.insert uri document }.refresh uri
    (∃ entry, w.cache.entries.get? uri = some entry ∧ refreshed.1.cache = w.cache ∧
      refreshed.2 = []) ∨
    ∃ entry, refreshed.1.cache.entries.get? uri = some entry ∧
      refreshed.2 = [.publish uri (w.settings.filter entry.checked.diagnostics)
        (some document.version)] := by
  simp only [refresh, UriMap.get?_insert_self]
  obtain ⟨entry, hget, -, heq⟩ | ⟨-, heq⟩ := w.cache.recompute_cases uri document.content
  · exact .inl ⟨entry, hget, by rw [heq], by rw [heq]; rfl⟩
  · rw [heq]
    have hget := UriMap.get?_insert_self w.cache.entries uri
      ⟨.ofText document.content, contentHash document.content, w.cache.lastSeq uri + 1⟩
    exact .inr ⟨_, hget, publish_eq (Cache.isLatest_of_get? hget)⟩

/-- Setting and checking a document publishes nothing for it, or shows it by the settings in
force. -/
theorem Shows.refresh_self (h : w.Shows uri shown settings) (document : Document) :
    let refreshed := { w with documents := w.documents.insert uri document }.refresh uri
    Outgoing.last? uri refreshed.2 = none ∧ refreshed.1.Shows uri shown settings ∨
      refreshed.1.Shows uri ((Outgoing.last? uri refreshed.2).or shown) w.settings := by
  intro refreshed
  have hopen : refreshed.1.IsOpen uri := by
    rw [IsOpen]
    simp only [refreshed, refresh_insert, UriMap.get?_insert_self, Option.isSome_some]
  obtain ⟨entry, hget, hcache, hsent⟩ | ⟨entry, hget, hsent⟩ := w.refresh_insert_cases uri document
  · refine .inl ⟨by rw [hsent]; rfl, iff_of_true hopen ?_, ?_, ?_⟩
    · rw [hcache, hget]
      rfl
    · rw [hcache]
      exact h.known
    · rw [hcache, hget]
      nofun
  · right
    refine ⟨iff_of_true hopen ?_, fun entry' hget' => ?_, ?_⟩
    · rw [hget]
      rfl
    · obtain rfl := Option.some.inj (hget.symm.trans hget')
      rw [hsent]
      simp [Outgoing.last?, Outgoing.diagnosticsFor?]
    · rw [hget]
      nofun

/-- Setting and checking one document leaves what is shown of the others. -/
theorem Shows.refresh_of_ne (h : w.Shows uri shown settings) (document : Document)
    (hne : other ≠ uri) :
    let refreshed := { w with documents := w.documents.insert other document }.refresh other
    Outgoing.last? uri refreshed.2 = none ∧ refreshed.1.Shows uri shown settings := by
  intro refreshed
  refine ⟨?_, h.congr ?_ ?_⟩
  · obtain ⟨_, -, -, hsent⟩ | ⟨_, -, hsent⟩ := w.refresh_insert_cases other document
    · rw [hsent]
      rfl
    · rw [hsent]
      simp [Outgoing.last?, Outgoing.diagnosticsFor?, hne]
  · simp only [refreshed, refresh_insert, UriMap.get?_insert_of_ne _ _ hne.symm]
  · simp only [refreshed, refresh_insert]
    exact Cache.get?_recompute_of_ne hne.symm

/-- Setting and checking any document leaves the settings, and it publishes nothing for a document
or shows it by the settings in force. -/
theorem Shows.refresh (h : w.Shows uri shown settings) (other : Uri) (document : Document) :
    let refreshed := { w with documents := w.documents.insert other document }.refresh other
    refreshed.1.settings = w.settings ∧
      (Outgoing.last? uri refreshed.2 = none ∧ refreshed.1.Shows uri shown settings ∨
        refreshed.1.Shows uri ((Outgoing.last? uri refreshed.2).or shown)
          refreshed.1.settings) := by
  intro refreshed
  have hsettings : refreshed.1.settings = w.settings := by
    simp only [refreshed, refresh_insert]
  refine ⟨hsettings, ?_⟩
  by_cases hother : other = uri
  · subst hother
    rw [hsettings]
    exact h.refresh_self document
  · exact .inl (h.refresh_of_ne document hother)

/-- A document that is closed is shown without diagnostics. -/
theorem Shows.close_self (w : Workspace) (uri : Uri) (settings : Settings) :
    Shows ⟨w.documents.erase uri, w.cache.evict uri, w.settings⟩ uri (some []) settings := by
  have hentry : (w.cache.evict uri).entries.get? uri = none := UriMap.get?_erase_self _ _
  refine ⟨?_, ?_, fun _ => .inr rfl⟩
  · rw [IsOpen, UriMap.get?_erase_self, hentry]
    rfl
  · rw [hentry]
    nofun

/-- Publishing everything again shows a document by the settings in force. -/
theorem Shows.republish (h : w.Shows uri shown settings) :
    w.Shows uri ((Outgoing.last? uri w.republish).or shown) w.settings := by
  refine ⟨h.open_iff, fun entry hget => ?_, fun hget => ?_⟩
  · have hopen : w.IsOpen uri := h.open_iff.2 (by rw [hget]; rfl)
    have hcurrent : w.currentDiagnostics uri = w.settings.filter entry.checked.diagnostics := by
      rw [currentDiagnostics, Cache.diagnostics, hget]
      rfl
    rw [Outgoing.last?_eq_some (fun _ hmessage _ => diagnosticsFor?_republish hmessage)
      (exists_mem_republish hopen hget), Option.some_or, hcurrent]
  · -- Nothing is known about the document, so that what could be published is nothing.
    cases hlast : Outgoing.last? uri w.republish with
    | none => exact h.unknown hget
    | some diagnostics =>
      obtain ⟨message, hmessage, hdiagnostics⟩ :=
        List.mem_filterMap.1 (List.mem_of_getLast? hlast)
      have hempty : w.currentDiagnostics uri = [] := by
        rw [currentDiagnostics, Cache.diagnostics, hget, Settings.filter]
        exact ite_eq_right_iff.2 fun _ => List.take_nil
      right
      rw [Option.some_or, diagnosticsFor?_republish hmessage hdiagnostics, hempty]

/-- What a notice does to what is shown of a document. Either nothing is published for the document,
and then only a client that is ready can have changed the settings in force; or the document is
shown by the settings that are now in force. -/
theorem Shows.notify (h : w.Shows uri shown settings) (answer : Option (List Json))
    (notice : Notice) :
    let after := w.notify answer notice
    (notice ≠ .configurationChanged ∧ Outgoing.last? uri after.2 = none ∧
      (after.1.settings = w.settings ∨ notice = .ready ∧ w.IsOpen uri ∧
        w.settings.load answer ≠ w.settings) ∧
      after.1.Shows uri shown settings) ∨
    after.1.Shows uri ((Outgoing.last? uri after.2).or shown) after.1.settings := by
  cases notice with
  | ready =>
    have hafter : (w.configure answer).Shows uri shown settings := h.congr rfl rfl
    by_cases hopen : w.IsOpen uri
    · refine .inl ⟨nofun, rfl, ?_, hafter⟩
      by_cases hsame : w.settings.load answer = w.settings
      · exact .inl hsame
      · exact .inr ⟨rfl, hopen, hsame⟩
    · exact .inr (hafter.of_not_isOpen hopen _)
  | opened other document =>
    obtain ⟨hsettings, hshows⟩ := h.refresh other document
    exact hshows.imp_left fun ⟨hsent, hshows⟩ => ⟨nofun, hsent, .inl hsettings, hshows⟩
  | changed other version edits =>
    cases edits with
    | nil => exact .inl ⟨nofun, rfl, .inl rfl, h⟩
    | cons edit edits =>
      obtain ⟨hsettings, hshows⟩ := h.refresh other _
      exact hshows.imp_left fun ⟨hsent, hshows⟩ => ⟨nofun, hsent, .inl hsettings, hshows⟩
  | closed other =>
    by_cases hother : other = uri
    · subst hother
      right
      have hlast : Outgoing.last? other [.publish other [] none] = some [] := by
        simp [Outgoing.last?, Outgoing.diagnosticsFor?]
      simp only [Workspace.notify, hlast, Option.some_or]
      exact Shows.close_self w other w.settings
    · have hlast : Outgoing.last? uri [.publish other [] none] = none := by
        simp [Outgoing.last?, Outgoing.diagnosticsFor?, hother]
      refine .inl ⟨?_, hlast, .inl rfl, ?_⟩
      · intro hchanged
        cases hchanged
      refine h.congr ?_ (UriMap.get?_erase_of_ne _ (Ne.symm hother))
      rw [Workspace.notify, UriMap.get?_erase_of_ne _ (Ne.symm hother)]
  | configurationChanged =>
    right
    have hconfigured : (w.configure answer).Shows uri shown settings := h.congr rfl rfl
    have hlast : Outgoing.last? uri (.configuration :: (w.configure answer).republish) =
        Outgoing.last? uri (w.configure answer).republish := rfl
    simp only [Workspace.notify, hlast]
    exact hconfigured.republish

end Workspace

/-! ### A series of notices -/

namespace Dialogue

variable {dialogue : Dialogue} {uri : Uri}

/-- What is sent from a workspace in a dialogue. -/
def sentFrom (w : Workspace) : Dialogue → List Outgoing
  | [] => []
  | told :: rest => (w.notify told.2 told.1).2 ++ sentFrom (w.notify told.2 told.1).1 rest

/-- What is sent in a dialogue. -/
def sent (dialogue : Dialogue) : List Outgoing := dialogue.sentFrom .empty

/-- The diagnostics of a document that the client sees after a dialogue, if any were published. -/
def shown? (dialogue : Dialogue) (uri : Uri) : Option (List Diagnostic) :=
  Outgoing.last? uri dialogue.sent

/-- The client was ready with new settings while a document was open, and nothing was published for
the document since. -/
def Missed (dialogue : Dialogue) (uri : Uri) : Prop :=
  ∃ earlier answer later, dialogue = earlier ++ (.ready, answer) :: later ∧
    (workspace earlier).IsOpen uri ∧
    (workspace earlier).settings.load answer ≠ (workspace earlier).settings ∧
    Outgoing.last? uri (sentFrom ((workspace earlier).configure answer) later) = none

theorem sentFrom_append (w : Workspace) (dialogue later : Dialogue) :
    sentFrom w (dialogue ++ later) = sentFrom w dialogue ++
      sentFrom (dialogue.foldl (fun w told => (w.notify told.2 told.1).1) w) later := by
  induction dialogue generalizing w with
  | nil => rfl
  | cons told rest ih =>
    rw [List.cons_append, sentFrom, ih, sentFrom, List.foldl_cons, List.append_assoc]

theorem sent_append (dialogue later : Dialogue) :
    sent (dialogue ++ later) = dialogue.sent ++ later.sentFrom dialogue.workspace :=
  sentFrom_append ..

theorem shown?_concat (dialogue : Dialogue) (told : Notice × Option (List Json)) (uri : Uri) :
    shown? (dialogue ++ [told]) uri =
      (Outgoing.last? uri (dialogue.workspace.notify told.2 told.1).2).or
        (dialogue.shown? uri) := by
  rw [shown?, sent_append, Outgoing.last?_append, sentFrom, sentFrom, List.append_nil, shown?]

/-- What was published once stays published or is replaced. -/
theorem isSome_shown?_append {later : Dialogue} (h : (dialogue.shown? uri).isSome = true) :
    (shown? (dialogue ++ later) uri).isSome = true := by
  rw [shown?, sent_append, Outgoing.last?_append, Option.isSome_or]
  exact Bool.or_eq_true_iff.2 (.inr h)

/-- A notice for which nothing is published leaves missed settings missed. -/
theorem Missed.concat (h : dialogue.Missed uri) {told : Notice × Option (List Json)}
    (hsent : Outgoing.last? uri (dialogue.workspace.notify told.2 told.1).2 = none) :
    Missed (dialogue ++ [told]) uri := by
  obtain ⟨earlier, answer, later, rfl, hopen, hnew, hlater⟩ := h
  refine ⟨earlier, answer, later ++ [told], by simp, hopen, hnew, ?_⟩
  have hafter : workspace (earlier ++ (.ready, answer) :: later) =
      later.foldl (fun w told => (w.notify told.2 told.1).1)
        ((workspace earlier).configure answer) := by
    rw [workspace, List.foldl_append, List.foldl_cons]
    rfl
  rw [sentFrom_append, Outgoing.last?_append, hlater, Option.or_none, sentFrom, sentFrom,
    List.append_nil, ← hafter, hsent]

/-- A document is shown by settings that were in force at some time since the client last told that
its configuration has changed, and these are still in force unless new ones were missed. -/
theorem exists_shows (dialogue : Dialogue) (uri : Uri) :
    ∃ earlier later, dialogue = earlier ++ later ∧ (∀ told ∈ later, told.1 ≠ .configurationChanged) ∧
      dialogue.workspace.Shows uri (dialogue.shown? uri) (workspace earlier).settings ∧
      (dialogue.workspace.settings = (workspace earlier).settings ∨ dialogue.Missed uri) := by
  -- By induction on the notices, the latest one last. If it publishes nothing, the settings are
  -- those from before; otherwise they are the ones in force now.
  induction dialogue using List.reverseRecOn with
  | nil =>
    exact ⟨[], [], rfl, List.forall_mem_nil _,
      ⟨iff_of_false nofun nofun, nofun, fun _ => .inl rfl⟩, .inl rfl⟩
  | append_singleton dialogue told ih =>
    obtain ⟨earlier, later, hsplit, hlater, hshows, hsettings⟩ := ih
    rw [shown?_concat, workspace_concat]
    obtain ⟨htold, hsent, hkept, hshows⟩ | hshows := hshows.notify told.2 told.1
    · rw [hsent, Option.none_or]
      refine ⟨earlier, later ++ [told], ?_, fun other hother => ?_, hshows, ?_⟩
      · rw [hsplit, List.append_assoc]
      · obtain hother | hother := List.mem_append.1 hother
        · exact hlater other hother
        · rw [List.mem_singleton.1 hother]
          exact htold
      · obtain hsettings | hmissed := hsettings
        · obtain hkept | ⟨hready, hopen, hnew⟩ := hkept
          · exact .inl (hkept.trans hsettings)
          · exact .inr ⟨dialogue, told.2, [], by rw [← hready], hopen, hnew, rfl⟩
        · exact .inr (hmissed.concat hsent)
    · refine ⟨dialogue ++ [told], [], (List.append_nil _).symm, List.forall_mem_nil _, ?_, .inl ?_⟩
      · rw [workspace_concat]
        exact hshows
      · rw [workspace_concat]

/-- An open document is shown with the diagnostics that are kept for it, by settings that were in
force at some time since the client last told that its configuration has changed. -/
theorem exists_shown?_eq (hopen : dialogue.workspace.IsOpen uri) :
    ∃ earlier later, dialogue = earlier ++ later ∧ (∀ told ∈ later, told.1 ≠ .configurationChanged) ∧
      (dialogue.workspace.settings = (workspace earlier).settings ∨ dialogue.Missed uri) ∧
      dialogue.shown? uri =
        some ((workspace earlier).settings.filter (dialogue.workspace.cache.diagnostics uri)) := by
  obtain ⟨earlier, later, hsplit, hlater, hshows, hsettings⟩ := exists_shows dialogue uri
  obtain ⟨entry, hget⟩ := Option.isSome_iff_exists.1 (hshows.open_iff.1 hopen)
  refine ⟨earlier, later, hsplit, hlater, hsettings, ?_⟩
  rw [hshows.known entry hget, Cache.diagnostics, hget]
  rfl

/-- An open document is shown with its current diagnostics unless new settings were missed. -/
theorem shown?_eq_current (hopen : dialogue.workspace.IsOpen uri)
    (hmissed : ¬ dialogue.Missed uri) :
    dialogue.shown? uri = some (dialogue.workspace.currentDiagnostics uri) := by
  obtain ⟨earlier, later, -, -, hsettings, hshown⟩ := exists_shown?_eq hopen
  rw [hshown, ← hsettings.resolve_right hmissed]
  rfl

/-- A document that was open and is not open any more is shown without diagnostics. -/
theorem shown?_eq_nil (hclosed : ¬ dialogue.workspace.IsOpen uri) {earlier : Dialogue}
    (hearlier : earlier <+: dialogue) (hopen : earlier.workspace.IsOpen uri) :
    dialogue.shown? uri = some [] := by
  obtain ⟨rest, hrest⟩ := hearlier
  obtain ⟨_, _, -, -, -, hbefore⟩ := exists_shown?_eq hopen
  have hsome : (dialogue.shown? uri).isSome = true := by
    rw [← hrest]
    refine isSome_shown?_append ?_
    rw [hbefore]
    rfl
  obtain ⟨_, _, -, -, hshows, -⟩ := exists_shows dialogue uri
  have hget : dialogue.workspace.cache.entries.get? uri = none :=
    Option.not_isSome_iff_eq_none.1 fun hget => hclosed (hshows.open_iff.2 hget)
  refine (hshows.unknown hget).resolve_left fun hnone => ?_
  rw [hnone] at hsome
  cases hsome

/-- What a client sees after any dialogue. A document that was open at some time and is not open now
is shown without diagnostics. A document that is open is shown with the diagnostics that are kept
for it, by settings that were in force at some time since the client last told that its
configuration has changed; and these are the current diagnostics, unless the client was ready with
new settings while the document was open, and nothing was published for the document since. -/
theorem shown_by_settings (dialogue : Dialogue) (uri : Uri) :
    let w := dialogue.workspace
    (¬ w.IsOpen uri → (∃ earlier, earlier <+: dialogue ∧ (workspace earlier).IsOpen uri) →
      dialogue.shown? uri = some []) ∧
    (w.IsOpen uri →
      (∃ earlier later, dialogue = earlier ++ later ∧
        (∀ told ∈ later, told.1 ≠ .configurationChanged) ∧
        dialogue.shown? uri =
          some ((workspace earlier).settings.filter (w.cache.diagnostics uri))) ∧
      (¬ dialogue.Missed uri → dialogue.shown? uri = some (w.currentDiagnostics uri))) := by
  refine ⟨?_, fun hopen => ⟨?_, shown?_eq_current hopen⟩⟩
  · rintro hclosed ⟨earlier, hearlier, hopen⟩
    exact shown?_eq_nil hclosed hearlier hopen
  · obtain ⟨earlier, later, hsplit, hlater, -, hshown⟩ := exists_shown?_eq hopen
    exact ⟨earlier, later, hsplit, hlater, hshown⟩

/-- A document that is opened before the client is ready is shown by the default settings, whatever
settings the client then asks for. -/
theorem shown?_of_opened_first (uri : Uri) (document : Document) (answer : Option (List Json)) :
    let dialogue : Dialogue := [(.opened uri document, none), (.ready, answer)]
    let diagnostics := (CheckedText.ofText document.content).diagnostics
    dialogue.workspace.IsOpen uri ∧
    dialogue.shown? uri = some (({} : Settings).filter diagnostics) ∧
    dialogue.workspace.currentDiagnostics uri =
      (({} : Settings).load answer).filter diagnostics := by
  intro dialogue diagnostics
  let opened := workspace [(.opened uri document, none)]
  have hbefore : Workspace.empty.HasText uri none := ⟨rfl, rfl, rfl⟩
  have htext : opened.HasText uri (some document.content) := hbefore.refresh_self document nofun
  have hdiagnostics : opened.cache.diagnostics uri = diagnostics := htext.diagnostics
  have hsettings : opened.settings = {} :=
    congrArg Workspace.settings (Workspace.empty.refresh_insert uri document)
  have hopen : opened.IsOpen uri := by
    obtain ⟨_, hget, -⟩ := Option.map_eq_some_iff.1 htext.content
    rw [Workspace.IsOpen, hget]
    rfl
  refine ⟨hopen, ?_, ?_⟩
  · have hmissed : ¬ Missed [(.opened uri document, none)] uri := by
      rintro ⟨earlier, asked, later, hsplit, -⟩
      have hready : (.ready, asked) ∈ [(Notice.opened uri document, none)] :=
        hsplit ▸ List.mem_append_right _ List.mem_cons_self
      cases List.mem_singleton.1 hready
    rw [← hdiagnostics, ← hsettings]
    exact (shown?_concat [(.opened uri document, none)] (.ready, answer) uri).trans
      (shown?_eq_current hopen hmissed)
  · rw [← hdiagnostics, ← hsettings]
    rfl

/-- A client that opens a document and then is ready, where its configuration has diagnostics
switched off, still sees them. -/
theorem shown_after_ready :
    let uri : Uri := ⟨"untitled", none, "a", none, none⟩
    let off : Json := .object [("diagnostics", .object [("enabled", .bool false)])]
    let dialogue : Dialogue := [(.opened uri ⟨"#", 1⟩, none), (.ready, some [off])]
    dialogue.workspace.IsOpen uri ∧ dialogue.workspace.currentDiagnostics uri = [] ∧
    ∃ diagnostic, dialogue.shown? uri = some [diagnostic] := by
  intro uri off dialogue
  obtain ⟨hopen, hshown, hcurrent⟩ := shown?_of_opened_first uri ⟨"#", 1⟩ (some [off])
  have hparse : (Program.parse "#").toOption.isSome = false := by decide +kernel
  have hoff : ({} : Settings).load (some [off]) = ⟨false, 200⟩ := by rfl
  cases h : Program.parse "#" with
  | ok p =>
    rw [h] at hparse
    cases hparse
  | error e =>
    refine ⟨hopen, ?_, .ofParseError "#" e, ?_⟩
    · rw [hcurrent, hoff]
      rfl
    · rw [hshown, CheckedText.ofText, h]
      rfl

end Dialogue

end LWorkbench
