import LWorkbench.Editor.CheckedText
import LWorkbench.Editor.UriMap
import LWorkbench.Text.Hash

/-!
# The cache of checked texts

Checking a text takes time, so the result is kept for every document and made anew only when the
text has another hash. Every new result of a document gets the next number, by which a result that
is about to be published can be told from a later one. The number is kept with the result, so a
document that was forgotten starts again from one.

## Main definitions

* `Cache` — the checked text of every document, with its number
* `Cache.recompute` — the result for a text, made anew if need be
* `Cache.current?`, `Cache.snapshot?`, `Cache.diagnostics` — what is kept for a document
* `Cache.isLatest`, `Cache.evict` — whether a number is the last one, and forgetting a document
-/

namespace LWorkbench

/-- What is kept for a document. -/
structure CacheEntry where
  checked : CheckedText
  /-- The hash of the text that was checked. -/
  hash : UInt64
  seq : UInt64

/-- A result for a document. -/
structure Recomputed where
  seq : UInt64
  diagnostics : List Diagnostic
  /-- Whether the result was made anew. -/
  changed : Bool
  deriving DecidableEq, Repr

/-- The checked text of every document. -/
structure Cache where
  entries : UriMap CacheEntry

namespace Cache

/-- A cache that knows no document. -/
def empty : Cache := ⟨.empty⟩

/-- The result for the text of a document, which is made anew unless the text has the hash of the
one that was checked last. -/
def recompute (cache : Cache) (uri : Uri) (text : String) : Cache × Recomputed :=
  let hash := contentHash text
  let fresh (seq : UInt64) : Cache × Recomputed :=
    let checked := CheckedText.ofText text
    (⟨cache.entries.insert uri ⟨checked, hash, seq⟩⟩, ⟨seq, checked.diagnostics, true⟩)
  match cache.entries.get? uri with
  | none => fresh 1
  | some entry =>
    if entry.hash = hash then (cache, ⟨entry.seq, entry.checked.diagnostics, false⟩)
    else fresh (entry.seq + 1)

/-- The program of a document, if its text parses. -/
def program? (cache : Cache) (uri : Uri) : Option Annotated :=
  (cache.entries.get? uri).bind (·.checked.program)

/-- The program of a document together with the text it was read from. -/
def snapshot? (cache : Cache) (uri : Uri) : Option (Annotated × String) :=
  (cache.entries.get? uri).bind fun entry =>
    entry.checked.program.map fun program => (program, entry.checked.text)

/-- The diagnostics of a document; none for an unknown one. -/
def diagnostics (cache : Cache) (uri : Uri) : List Diagnostic :=
  ((cache.entries.get? uri).map (·.checked.diagnostics)).getD []

/-- What is kept for a document, as a result that was not made anew. -/
def current? (cache : Cache) (uri : Uri) : Option Recomputed :=
  (cache.entries.get? uri).map fun entry => ⟨entry.seq, entry.checked.diagnostics, false⟩

/-- Whether a number is that of the last result of a document. -/
def isLatest (cache : Cache) (uri : Uri) (seq : UInt64) : Bool :=
  ((cache.entries.get? uri).map (·.seq == seq)).getD false

/-- Forgets a document. -/
def evict (cache : Cache) (uri : Uri) : Cache := ⟨cache.entries.erase uri⟩

end Cache

end LWorkbench
