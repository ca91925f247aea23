import JavaSurvey.Analysis
import JavaSurvey.Document

/-!
# Cache

The latest analysis of every document, by its address. An entry answers a request if the text has
the fingerprint and the size of the text that was analysed.
-/

namespace JavaSurvey

/-- One step of the fingerprint: a character is mixed in, and the sum is spread. -/
def mix (h : UInt32) (c : Char) : UInt32 :=
  (h ^^^ c.val) * 16777619

/-- The fingerprint of a text. -/
def fingerprint (t : Text) : UInt32 :=
  t.foldl mix 2166136261

/-- A stored analysis, with what tells its text from others. -/
structure CacheEntry where
  fingerprint : UInt32
  size : Nat
  analysis : FileAnalysis
  /-- How many analyses were stored before this one. -/
  serial : Nat

/-- The stored analyses by address, and the size above which a text is not analysed. -/
structure Cache where
  limit : Int
  entries : List (String × CacheEntry) := []
  stored : Nat := 0

/-- How a document stands to a cache. -/
inductive Standing where
  | otherLanguage
  | oversized
  | known (entry : CacheEntry)
  | unknown

namespace Cache

/-- The entry of an address. -/
def find? (c : Cache) (uri : String) : Option CacheEntry :=
  c.entries.lookup uri

/-- Whether an address has an entry. -/
def contains (c : Cache) (uri : String) : Bool :=
  (c.find? uri).isSome

/-- The cache without the entry of an address. -/
def erase (c : Cache) (uri : String) : Cache :=
  { c with entries := c.entries.filter (·.1 != uri) }

/-- The cache without entries. -/
def clear (c : Cache) : Cache :=
  { c with entries := [] }

/-- The cache after the analysis of a document is stored. -/
def store (c : Cache) (d : Document) (a : FileAnalysis) : Cache :=
  let entry : CacheEntry := ⟨JavaSurvey.fingerprint d.text, d.size, a, c.stored⟩
  { c with entries := (d.uri, entry) :: (c.erase d.uri).entries, stored := c.stored + 1 }

/-- The entry that answers a request for a document. -/
def answer? (c : Cache) (d : Document) : Option CacheEntry :=
  (c.find? d.uri).filter fun e =>
    e.fingerprint == JavaSurvey.fingerprint d.text && e.size == d.size

/-- How a document stands to a cache. -/
def standing (c : Cache) (d : Document) : Standing :=
  if !d.isJava then .otherLanguage
  else if c.limit < d.size then .oversized
  else
    match c.answer? d with
    | some e => .known e
    | none => .unknown

/-- The addresses with an entry. -/
def addresses (c : Cache) : List String :=
  sortByKey id (c.entries.map (·.1))

end Cache

end JavaSurvey
