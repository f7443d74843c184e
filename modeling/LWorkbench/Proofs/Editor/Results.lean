import LWorkbench.Editor.Workspace
import Mathlib

/-!
# Results and their numbers

What a cache keeps for a document depends only on the texts that were checked for it since it was
last forgotten: it is the result of the last text that had another hash than the one before it, and
its number says how many such texts there were. So as long as a document is not forgotten, a number
stands for one result. After it was forgotten the numbers start again from one, and a number that
was given out before stands for another result.

## Main definitions

* `Cache.Call`, `Cache.after` — what is asked of a cache, and the cache after a series of calls
* `Cache.renewals` — the texts of which new results were made since a document was last forgotten

## Main results

* `Cache.recompute_cases` — the two things that can happen to a text
* `Cache.get?_after` — what is kept for a document after a series of calls
* `Cache.latest_number_identifies` — what a number that is still the latest says
-/

namespace LWorkbench

namespace Cache

variable {cache : Cache} {uri : Uri} {text : String} {texts : List String}

/-! ### One call -/

/-- What is asked of a cache. -/
inductive Call where
  | recompute (uri : Uri) (text : String)
  | evict (uri : Uri)
  deriving DecidableEq

/-- Whether a call asks for a result. -/
def Call.isRecompute : Call → Bool
  | recompute _ _ => true
  | evict _ => false

/-- The cache after a call. -/
def call (cache : Cache) : Call → Cache
  | .recompute uri text => (cache.recompute uri text).1
  | .evict uri => cache.evict uri

/-- The number of the last result of a document, zero if there is none. -/
def lastSeq (cache : Cache) (uri : Uri) : UInt64 :=
  ((cache.entries.get? uri).map CacheEntry.seq).getD 0

/-- Whether what is kept for a document was made from a text with the hash of a given one. -/
def Holds (cache : Cache) (uri : Uri) (text : String) : Prop :=
  (cache.entries.get? uri).map CacheEntry.hash = some (contentHash text)

/-- A text with the hash of the last one gets the result that is kept, and every other text gets a
new result with the next number. -/
theorem recompute_cases (cache : Cache) (uri : Uri) (text : String) :
    (∃ entry, cache.entries.get? uri = some entry ∧ entry.hash = contentHash text ∧
      cache.recompute uri text = (cache, ⟨entry.seq, entry.checked.diagnostics, false⟩)) ∨
    (¬ cache.Holds uri text ∧ cache.recompute uri text =
      (⟨cache.entries.insert uri ⟨.ofText text, contentHash text, cache.lastSeq uri + 1⟩⟩,
        ⟨cache.lastSeq uri + 1, (CheckedText.ofText text).diagnostics, true⟩)) := by
  unfold recompute Holds lastSeq
  cases hget : cache.entries.get? uri with
  | none => exact .inr ⟨nofun, rfl⟩
  | some entry =>
    by_cases hhash : entry.hash = contentHash text
    · exact .inl ⟨entry, rfl, hhash, by simp only [hhash, if_true]⟩
    · refine .inr ⟨fun h => hhash (Option.some.inj h), ?_⟩
      simp only [hhash, if_false, Option.map_some, Option.getD_some]

/-- What is kept for the document of a result. -/
theorem exists_entry_recompute (cache : Cache) (uri : Uri) (text : String) :
    ∃ entry, (cache.recompute uri text).1.entries.get? uri = some entry ∧
      entry.hash = contentHash text ∧ (cache.recompute uri text).2.seq = entry.seq ∧
      (cache.recompute uri text).2.diagnostics = entry.checked.diagnostics := by
  obtain ⟨entry, hget, hhash, heq⟩ | ⟨-, heq⟩ := cache.recompute_cases uri text
  · exact ⟨entry, by rw [heq, hget], hhash, by rw [heq], by rw [heq]⟩
  · exact ⟨_, by rw [heq, UriMap.get?_insert_self], rfl, by rw [heq], by rw [heq]⟩

/-- A result for one document leaves what is kept for the others. -/
theorem get?_recompute_of_ne {other : Uri} (hne : other ≠ uri) :
    (cache.recompute uri text).1.entries.get? other = cache.entries.get? other := by
  obtain ⟨entry, -, -, heq⟩ | ⟨-, heq⟩ := cache.recompute_cases uri text
  · rw [heq]
  · rw [heq, UriMap.get?_insert_of_ne _ _ hne]

/-- Whether a number is the last one, by what is kept. -/
theorem isLatest_iff {seq : UInt64} :
    cache.isLatest uri seq = true ↔ (cache.entries.get? uri).map CacheEntry.seq = some seq := by
  unfold isLatest
  cases cache.entries.get? uri with
  | none => exact iff_of_false nofun nofun
  | some entry => simp

/-! ### A series of calls -/

/-- The texts of which new results were made for a document since it was last forgotten, after a
call, where `texts` are those before the call. The last one comes first. -/
def Call.renew (uri : Uri) (texts : List String) : Call → List String
  | recompute other text =>
    if other = uri ∧ texts.head?.map contentHash ≠ some (contentHash text) then text :: texts
    else texts
  | evict other => if other = uri then [] else texts

/-- A call leaves the texts, adds its own, or forgets all of them. -/
theorem Call.renew_cases (uri : Uri) (texts : List String) (c : Call) :
    c.renew uri texts = texts ∨
      (∃ text, c = .recompute uri text ∧ c.renew uri texts = text :: texts) ∨
      (c = .evict uri ∧ c.renew uri texts = []) := by
  cases c with
  | recompute other text =>
    rw [renew]
    split
    · exact .inr (.inl ⟨text, by rw [‹other = uri ∧ _›.1], rfl⟩)
    · exact .inl rfl
  | evict other =>
    rw [renew]
    split
    · exact .inr (.inr ⟨by rw [‹other = uri›], rfl⟩)
    · exact .inl rfl

/-- The texts of which new results were made for a document since it was last forgotten. -/
def renewals (uri : Uri) (calls : List Call) : List String :=
  calls.foldl (Call.renew uri) []

/-- The cache after a series of calls. -/
def after (calls : List Call) : Cache :=
  calls.foldl call empty

theorem renewals_concat (uri : Uri) (calls : List Call) (c : Call) :
    renewals uri (calls ++ [c]) = c.renew uri (renewals uri calls) := List.foldl_concat ..

theorem after_concat (calls : List Call) (c : Call) :
    after (calls ++ [c]) = (after calls).call c := List.foldl_concat ..

/-- What is kept when new results were made of the given texts. -/
def kept (texts : List String) : Option CacheEntry :=
  texts.head?.map fun text => ⟨.ofText text, contentHash text, .ofNat texts.length⟩

theorem map_hash_kept : (kept texts).map CacheEntry.hash = texts.head?.map contentHash := by
  cases texts <;> rfl

theorem getD_seq_kept : ((kept texts).map CacheEntry.seq).getD 0 = .ofNat texts.length := by
  cases texts <;> rfl

/-- What is kept after one call. -/
theorem get?_call (h : cache.entries.get? uri = kept texts) (c : Call) :
    (cache.call c).entries.get? uri = kept (c.renew uri texts) := by
  cases c with
  | recompute other text =>
    by_cases hother : other = uri
    · subst hother
      have hholds : cache.Holds other text ↔
          texts.head?.map contentHash = some (contentHash text) := by
        rw [Holds, h, map_hash_kept]
      obtain ⟨entry, hget, hhash, heq⟩ | ⟨hnew, heq⟩ := cache.recompute_cases other text
      · have hsame : cache.Holds other text := by rw [Holds, hget, Option.map_some, hhash]
        rw [call, heq, Call.renew, if_neg fun hne => hne.2 (hholds.1 hsame), h]
      · rw [call, heq, Call.renew, if_pos ⟨rfl, hnew ∘ hholds.2⟩, UriMap.get?_insert_self, lastSeq,
          h, getD_seq_kept, kept, List.head?_cons, Option.map_some, List.length_cons,
          UInt64.ofNat_add]
        -- The next number is the length of the longer list.
        rfl
    · rw [call, get?_recompute_of_ne (Ne.symm hother), h, Call.renew,
        if_neg fun hne => hother hne.1]
  | evict other =>
    by_cases hother : other = uri
    · subst hother
      rw [call, evict, UriMap.get?_erase_self, Call.renew, if_pos rfl]
      rfl
    · rw [call, evict, UriMap.get?_erase_of_ne _ (Ne.symm hother), h, Call.renew, if_neg hother]

/-- What is kept for a document after a series of calls: the result of the last text of which a new
one was made, and how many of them there were. -/
theorem get?_after (uri : Uri) (calls : List Call) :
    (after calls).entries.get? uri = kept (renewals uri calls) := by
  induction calls using List.reverseRecOn with
  | nil => rfl
  | append_singleton calls c ih =>
    rw [after_concat, renewals_concat]
    exact get?_call ih c

/-- At most one new result is made for each text. -/
theorem length_renewals_le (uri : Uri) (calls : List Call) :
    (renewals uri calls).length ≤ calls.countP Call.isRecompute := by
  induction calls using List.reverseRecOn with
  | nil => exact Nat.le_refl 0
  | append_singleton calls c ih =>
    rw [renewals_concat, List.countP_append]
    obtain h | ⟨text, rfl, h⟩ | ⟨-, h⟩ := c.renew_cases uri (renewals uri calls) <;> rw [h]
    · exact ih.trans (Nat.le_add_right _ _)
    · exact Nat.succ_le_succ ih
    · exact Nat.zero_le _

/-- New results are made of texts that results were asked for. -/
theorem recompute_mem_of_mem_renewals {calls : List Call} (h : text ∈ renewals uri calls) :
    .recompute uri text ∈ calls := by
  induction calls using List.reverseRecOn with
  | nil => cases h
  | append_singleton calls c ih =>
    rw [renewals_concat] at h
    obtain hrenew | ⟨new, rfl, hrenew⟩ | ⟨-, hrenew⟩ := c.renew_cases uri (renewals uri calls) <;>
      rw [hrenew] at h
    · exact List.mem_append_left _ (ih h)
    · obtain rfl | h := List.mem_cons.1 h
      · exact List.mem_append_right _ List.mem_cons_self
      · exact List.mem_append_left _ (ih h)
    · cases h

/-- While a document is not forgotten, new results only come on top of those before. -/
theorem renewals_suffix (before : List Call) {between : List Call}
    (hkept : .evict uri ∉ between) :
    renewals uri before <:+ renewals uri (before ++ between) := by
  induction between using List.reverseRecOn with
  | nil => rw [List.append_nil]
  | append_singleton between c ih =>
    refine (ih fun h => hkept (List.mem_append_left _ h)).trans ?_
    rw [← List.append_assoc, renewals_concat]
    obtain h | ⟨text, -, h⟩ | ⟨rfl, -⟩ := c.renew_cases uri (renewals uri (before ++ between))
    · rw [h]
    · rw [h]
      exact List.suffix_cons _ _
    · exact absurd (List.mem_append_right _ List.mem_cons_self) hkept

/-- The number of a document that is not forgotten is the same only as long as no new result is
made. -/
theorem get?_after_of_seq_eq {before between : List Call}
    (hfew : (before ++ between).countP Call.isRecompute < 2 ^ 64) (hkept : .evict uri ∉ between)
    {entry entry' : CacheEntry} (h : (after before).entries.get? uri = some entry)
    (h' : (after (before ++ between)).entries.get? uri = some entry')
    (hseq : entry'.seq = entry.seq) : entry' = entry := by
  have hsuffix := renewals_suffix before hkept
  have hlength := (length_renewals_le uri (before ++ between)).trans_lt hfew
  rw [get?_after] at h h'
  -- Numbers below the bound are equal only if as many new results were made.
  have heq : (renewals uri before).length = (renewals uri (before ++ between)).length := by
    have hnumber : UInt64.ofNat (renewals uri before).length =
        UInt64.ofNat (renewals uri (before ++ between)).length := by
      rw [← getD_seq_kept, ← getD_seq_kept, h, h']
      exact hseq.symm
    have htoNat := congrArg UInt64.toNat hnumber
    rwa [UInt64.toNat_ofNat_of_lt' (hsuffix.length_le.trans_lt hlength),
      UInt64.toNat_ofNat_of_lt' hlength] at htoNat
  rw [hsuffix.eq_of_length heq, h'] at h
  exact Option.some.inj h

/-- What is kept after a text was asked for is the result of that very text, if the texts before have
other hashes. -/
theorem checked_of_hashes_differ {before : List Call} {entry : CacheEntry}
    (hentry : (after (before ++ [.recompute uri text])).entries.get? uri = some entry)
    (hhash : entry.hash = contentHash text)
    (hdiffer : ∀ other, .recompute uri other ∈ before → contentHash other = contentHash text →
      other = text) :
    entry.checked = CheckedText.ofText text := by
  rw [get?_after] at hentry
  obtain ⟨made, hmade, rfl⟩ := Option.map_eq_some_iff.1 hentry
  have hcall := recompute_mem_of_mem_renewals (List.mem_of_head? hmade)
  -- The text that the result was made of was asked for before, or last.
  obtain hcall | hcall := List.mem_append.1 hcall
  · rw [hdiffer made hcall hhash]
  · cases List.mem_singleton.1 hcall
    rfl

/-- A document that was forgotten starts again with number one. -/
theorem isLatest_recompute_evict {seq : UInt64} :
    ((cache.evict uri).recompute uri text).1.isLatest uri seq = true ↔ seq = 1 := by
  have hforgotten : (cache.evict uri).entries.get? uri = kept [] := UriMap.get?_erase_self _ _
  have hagain : ((cache.evict uri).recompute uri text).1.entries.get? uri = kept [text] := by
    refine (get?_call hforgotten (.recompute uri text)).trans ?_
    rw [Call.renew, if_pos ⟨rfl, nofun⟩]
  rw [isLatest_iff, hagain]
  exact Option.some_inj.trans eq_comm

/-- What a number says that is still the latest one. While the document has not been forgotten since
the number was given out, the result of that number is still kept, made from a text of the same
hash, and only what is kept is ever published under the number. If all texts of the document differ
in their hashes, it is the result of that very text. But once the document was forgotten and has a
result again, the latest number is one whatever was given out before. -/
theorem latest_number_identifies (before between : List Call) (uri : Uri) (text : String)
    (hfew : (before ++ .recompute uri text :: between).countP Call.isRecompute < 2 ^ 64) :
    let result := ((after before).recompute uri text).2
    let later := after (before ++ .recompute uri text :: between)
    (.evict uri ∉ between →
      (later.isLatest uri result.seq = true →
        later.diagnostics uri = result.diagnostics ∧
        ∃ entry, later.entries.get? uri = some entry ∧ entry.hash = contentHash text ∧
          ((∀ other, .recompute uri other ∈ before → contentHash other = contentHash text →
            other = text) → entry.checked = CheckedText.ofText text)) ∧
      ∀ (w : Workspace) (version : Int), w.cache = later →
        ∀ message ∈ w.publish uri result version,
          message = .publish uri (w.currentDiagnostics uri) (some version)) ∧
    ∀ other seq, ((later.evict uri).recompute uri other).1.isLatest uri seq = true ↔ seq = 1 := by
  intro result later
  obtain ⟨entry, hget, hhash, hseq, hdiagnostics⟩ := (after before).exists_entry_recompute uri text
  have hlater : later = after ((before ++ [.recompute uri text]) ++ between) := by
    rw [List.append_assoc]
    rfl
  have hentry : (after (before ++ [.recompute uri text])).entries.get? uri = some entry := by
    rw [after_concat]
    exact hget
  refine ⟨fun hkept => ?_, fun other seq => isLatest_recompute_evict⟩
  have hsame (hlatest : later.isLatest uri result.seq = true) :
      later.entries.get? uri = some entry := by
    obtain ⟨entry', hget', hseq'⟩ := Option.map_eq_some_iff.1 (isLatest_iff.1 hlatest)
    rw [hget', get?_after_of_seq_eq (by rwa [List.append_assoc]) hkept hentry (hlater ▸ hget')
      (hseq'.trans hseq)]
  have hcurrent (hlatest : later.isLatest uri result.seq = true) :
      later.diagnostics uri = result.diagnostics := by
    rw [diagnostics, hsame hlatest]
    exact hdiagnostics.symm
  refine ⟨fun hlatest => ⟨hcurrent hlatest, entry, hsame hlatest, hhash, fun hdiffer => ?_⟩, ?_⟩
  · exact checked_of_hashes_differ hentry hhash hdiffer
  · intro w version hw message hmessage
    unfold Workspace.publish at hmessage
    split at hmessage
    · rename_i hlatest
      rw [hw] at hlatest
      rw [List.mem_singleton.1 hmessage, Workspace.currentDiagnostics, hw, hcurrent hlatest]
    · cases hmessage

/-- The number of a second text is still the latest one after another document came and went. Once
the document was forgotten, the number of its first text is the latest one again. -/
theorem latest_number_identifies_second :
    let uri : Uri := ⟨"untitled", none, "a", none, none⟩
    let other : Uri := ⟨"untitled", none, "b", none, none⟩
    let later := after
      [.recompute uri "a;", .recompute uri "b;", .recompute other "c;", .evict other]
    ((after []).recompute uri "a;").2.seq = 1 ∧
    ((after [.recompute uri "a;"]).recompute uri "b;").2.seq = 2 ∧
    later.isLatest uri 2 = true ∧
    (∃ entry, later.entries.get? uri = some entry ∧ entry.checked = CheckedText.ofText "b;") ∧
    ((later.evict uri).recompute uri "d;").1.isLatest uri 1 = true := by
  intro uri other later
  have hfirst : ((after []).recompute uri "a;").2.seq = 1 := rfl
  have hsecond : ((after [.recompute uri "a;"]).recompute uri "b;").2.seq = 2 := by decide
  have hlatest : later.isLatest uri 2 = true := by decide
  obtain ⟨hidentifies, hagain⟩ := latest_number_identifies [.recompute uri "a;"]
    [.recompute other "c;", .evict other] uri "b;" (by decide)
  obtain ⟨-, entry, hget, -, hchecked⟩ := (hidentifies (by decide)).1 (hsecond ▸ hlatest)
  refine ⟨hfirst, hsecond, hlatest, ⟨entry, hget, hchecked fun text hcall hhash => ?_⟩,
    (hagain "d;" 1).2 rfl⟩
  cases List.mem_singleton.1 hcall
  exact absurd hhash (by decide)

end Cache

end LWorkbench
