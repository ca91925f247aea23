import JavaSurvey.Proofs.Order
import JavaSurvey.Proofs.Syntax.Walk
import JavaSurvey.Proofs.Text.Blanks
import JavaSurvey.Proofs.Text.Slices
import Mathlib.Data.List.Pairwise

/-!
# Texts and ranges of tokens

The text of some tokens goes from the first of them to the end of the one that starts last. Their
range goes from the least start to the greatest end. Where no two tokens overlap these are the same
places, whatever order the tokens come in.

1. `Token.Apart.last_le`: of two tokens that do not overlap, the one that starts later ends later;
2. `exists_ends`: so the text of some tokens reaches from their least start to their greatest end;
3. `spannedText_between`: it has what is between any two of the tokens;
4. `rangeOf?_congr`: the range depends on which tokens there are, and not on their order;
5. `spannedText_eq_range`: the text of a node is that of its range.
-/

namespace JavaSurvey

namespace Token

/-- Two tokens are the same, or one ends before the other starts. -/
def Apart (t u : Token) : Prop :=
  t = u ∨ t.last < u.start ∨ u.last < t.start

instance : Std.Symm Apart where
  symm _ _ := by
    rintro (same | before | after)
    · exact .inl same.symm
    · exact .inr (.inr before)
    · exact .inr (.inl after)

instance (t u : Token) : Decidable (t.Apart u) :=
  inferInstanceAs (Decidable (_ ∨ _))

theorem Apart.last_le {t u : Token} {length : Nat} (apart : t.Apart u) (within : u.Within length)
    (ordered : t.start ≤ u.start) : t.last ≤ u.last := by
  have forward := within.ordered
  rcases apart with rfl | before | after
  · exact Int.le_refl _
  · exact Int.le_trans (Int.le_of_lt before) forward
  · omega

end Token

section SourceOrder

variable {tokens : List Token}

theorem mem_sourceOrder {t : Token} : t ∈ sourceOrder tokens ↔ t ∈ tokens :=
  (sortByKey_perm Token.start tokens).mem_iff

theorem head?_sourceOrder {first : Token} (head : (sourceOrder tokens).head? = some first) :
    first ∈ tokens ∧ ∀ t ∈ tokens, first.start ≤ t.start := by
  have sorted : (sourceOrder tokens).Pairwise fun t u => t.start ≤ u.start :=
    sortByKey_sorted Token.start tokens
  obtain ⟨rest, parts⟩ := List.head?_eq_some_iff.mp head
  rw [parts] at sorted
  refine ⟨mem_sourceOrder.mp (by rw [parts]; exact List.mem_cons_self), fun t member => ?_⟩
  rw [← mem_sourceOrder, parts] at member
  rcases List.mem_cons.mp member with rfl | later
  · exact Int.le_refl _
  · exact (List.pairwise_cons.mp sorted).1 t later

theorem getLast?_sourceOrder {final : Token} (last : (sourceOrder tokens).getLast? = some final) :
    final ∈ tokens ∧ ∀ t ∈ tokens, t.start ≤ final.start := by
  have sorted : (sourceOrder tokens).Pairwise fun t u => t.start ≤ u.start :=
    sortByKey_sorted Token.start tokens
  obtain ⟨before, parts⟩ := List.getLast?_eq_some_iff.mp last
  rw [parts] at sorted
  refine ⟨mem_sourceOrder.mp (by rw [parts]; simp), fun t member => ?_⟩
  rw [← mem_sourceOrder, parts] at member
  rcases List.mem_append.mp member with earlier | isLast
  · exact (List.pairwise_append.mp sorted).2.2 t earlier final (List.mem_singleton_self final)
  · exact Int.le_of_eq (congrArg Token.start (List.mem_singleton.mp isLast))

variable {source : Text} (within : ∀ t ∈ tokens, t.Within source.length)
  (apart : ∀ t ∈ tokens, ∀ u ∈ tokens, t.Apart u)

include within apart

/-- The text of some tokens reaches from one that starts first to one that ends last. -/
theorem exists_ends (nonempty : tokens ≠ []) :
    ∃ first ∈ tokens, ∃ final ∈ tokens,
      spannedText source tokens = Text.trim (Text.slice source first.start (final.last + 1)) ∧
      ∀ t ∈ tokens, first.start ≤ t.start ∧ t.last ≤ final.last := by
  have some : sourceOrder tokens ≠ [] := by
    obtain ⟨t, member⟩ := List.exists_mem_of_ne_nil tokens nonempty
    exact List.ne_nil_of_mem (mem_sourceOrder.mpr member)
  obtain ⟨first, head⟩ := Option.isSome_iff_exists.mp (List.isSome_head?.mpr some)
  obtain ⟨final, last⟩ := Option.isSome_iff_exists.mp (List.getLast?_isSome.mpr some)
  obtain ⟨inFirst, startsFirst⟩ := head?_sourceOrder head
  obtain ⟨inFinal, startsLast⟩ := getLast?_sourceOrder last
  refine ⟨first, inFirst, final, inFinal, ?_, fun t member => ⟨startsFirst t member, ?_⟩⟩
  · simp only [spannedText, head, last]
  · exact (apart t member final inFinal).last_le (within final inFinal) (startsLast t member)

/-- The text that some tokens span has what is between two of them, except for blanks at its
ends. -/
theorem spannedText_between {u v : Token} (isFirst : u ∈ tokens) (isLast : v ∈ tokens)
    (ordered : u.start ≤ v.start) :
    ∃ front back,
      spannedText source tokens =
        Text.trim (front ++ Text.slice source u.start (v.last + 1) ++ back) ∧
      back <+: source.drop (v.last + 1).toNat := by
  obtain ⟨first, inFirst, final, inFinal, spanned, holds⟩ :=
    exists_ends within apart (List.ne_nil_of_mem isFirst)
  have starts : first.start ≤ u.start := (holds u isFirst).1
  have ends : v.last ≤ final.last := (holds v isLast).2
  have nonneg := (within first inFirst).nonneg
  have forward := (within v isLast).ordered
  have bounded := (within final inFinal).bounded
  refine ⟨Text.slice source first.start u.start, Text.slice source (v.last + 1) (final.last + 1),
    ?_, ?_⟩
  · have afterStart := Text.slice_split source nonneg starts
      (by omega : u.start ≤ final.last + 1) (by omega)
    have beforeEnd := Text.slice_split source (by omega)
      (by omega : u.start ≤ v.last + 1) (by omega : v.last + 1 ≤ final.last + 1) (by omega)
    rw [spanned, afterStart, beforeEnd, List.append_assoc]
  · rw [Text.slice_eq (by omega) (by omega) (by omega)]
    exact List.take_prefix _ _

/-- The text of some tokens is that of their range. -/
theorem spannedText_of_rangeOf? {a b : Int} (range : rangeOf? tokens = some (a, b)) :
    spannedText source tokens = Text.trim (Text.slice source a b) := by
  obtain ⟨⟨t, inT, rfl⟩, ⟨u, inU, rfl⟩, inRange⟩ := rangeOf?_bounds range
  obtain ⟨first, inFirst, final, inFinal, spanned, holds⟩ :=
    exists_ends within apart (List.ne_nil_of_mem inT)
  have start : first.start = t.start :=
    Int.le_antisymm (holds t inT).1 (inRange first inFirst).1
  have last : final.last = u.last :=
    Int.le_antisymm (Int.le_of_lt_add_one (inRange final inFinal).2) (holds u inU).2
  rw [spanned, start, last]

end SourceOrder

/-! ## Ranges -/

theorem rangeOf?_eq_none_iff {tokens : List Token} : rangeOf? tokens = none ↔ tokens = [] := by
  cases tokens <;> simp [rangeOf?]

/-- Lists of the same tokens have the same range. -/
theorem rangeOf?_congr {tokens others : List Token} (same : ∀ t, t ∈ tokens ↔ t ∈ others) :
    rangeOf? tokens = rangeOf? others := by
  cases range : rangeOf? tokens with
  | none =>
    obtain rfl := rangeOf?_eq_none_iff.mp range
    obtain rfl : others = [] := List.eq_nil_iff_forall_not_mem.mpr fun t member => by
      cases (same t).mpr member
    rfl
  | some bounds =>
    cases range' : rangeOf? others with
    | none =>
      obtain rfl := rangeOf?_eq_none_iff.mp range'
      obtain rfl : tokens = [] := List.eq_nil_iff_forall_not_mem.mpr fun t member => by
        cases (same t).mp member
      cases range
    | some bounds' =>
      obtain ⟨a, b⟩ := bounds
      obtain ⟨c, d⟩ := bounds'
      have outer := rangeOf?_nested (fun t => (same t).mpr) range range'
      have inner := rangeOf?_nested (fun t => (same t).mp) range' range
      rw [Int.le_antisymm outer.1 inner.1, Int.le_antisymm inner.2 outer.2]

/-- Where no two tokens of a node overlap, the text of the node is the text of its range, which is
empty exactly if there is no token or only blanks are in the range. The order in which the tokens
are given makes no difference. -/
theorem spannedText_eq_range {source : Text} {n : Node}
    (within : ∀ t ∈ n.tokens, t.Within source.length) (apart : n.tokens.Pairwise Token.Apart) :
    (∀ a b, n.range? = some (a, b) →
      spannedText source n.tokens = Text.trim (Text.slice source a b)) ∧
    (spannedText source n.tokens = [] ↔
      n.range? = none ∨
        ∃ a b, n.range? = some (a, b) ∧ ∀ c ∈ Text.slice source a b, Text.isBlank c = true) ∧
    ∀ tokens : List Token, tokens.Perm n.tokens →
      spannedText source tokens = spannedText source n.tokens := by
  have apart : ∀ t ∈ n.tokens, ∀ u ∈ n.tokens, t.Apart u :=
    fun t inT u inU => apart.forall_of_forall (fun _ _ => .inl rfl) inT inU
  have text {a b : Int} (range : n.range? = some (a, b)) :
      spannedText source n.tokens = Text.trim (Text.slice source a b) :=
    spannedText_of_rangeOf? within apart range
  refine ⟨fun a b => text, ?_, fun tokens perm => ?_⟩
  · cases range : n.range? with
    | none =>
      have empty : n.tokens = [] := rangeOf?_eq_none_iff.mp range
      rw [empty]
      exact iff_of_true rfl (.inl rfl)
    | some bounds =>
      obtain ⟨a, b⟩ := bounds
      rw [text range, Text.trim_eq_nil_iff]
      simp
  · have same (t : Token) : t ∈ tokens ↔ t ∈ n.tokens := perm.mem_iff
    have range : rangeOf? tokens = n.range? := rangeOf?_congr same
    cases bounds : n.range? with
    | none =>
      rw [bounds, rangeOf?_eq_none_iff] at range
      rw [range, rangeOf?_eq_none_iff.mp bounds]
    | some ends =>
      rw [bounds] at range
      rw [text bounds]
      exact spannedText_of_rangeOf? (fun t member => within t ((same t).mp member))
        (fun t inT u inU => apart t ((same t).mp inT) u ((same u).mp inU)) range

/-- A source with a list of two names. -/
def nameSource : Text := " x ,y[] ".toList

/-- A node for the list in `nameSource`. The names share a slot, so that the comma comes after both,
and the second one has its bracket first. -/
def nameList : Node :=
  ⟨"names", [
    .token "name" ⟨"x", 1, none⟩,
    .node "name" "indexed" [.token "]" ⟨"]", 6, none⟩, .token "name" ⟨"y[", 4, some 5⟩],
    .token "," ⟨",", 3, none⟩]⟩

theorem spannedText_eq_range_nameList :
    (∀ t ∈ nameList.tokens, t.Within nameSource.length) ∧ nameList.tokens.Pairwise Token.Apart ∧
      nameList.range? = some (1, 7) ∧
      spannedText nameSource nameList.tokens = "x ,y[]".toList ∧
      spannedText nameSource nameList.tokens.reverse = "x ,y[]".toList := by
  have within : ∀ t ∈ nameList.tokens, t.Within nameSource.length := by
    rw [Node.tokens_eq]
    decide
  have apart : nameList.tokens.Pairwise Token.Apart := by
    rw [Node.tokens_eq]
    decide
  have range : nameList.range? = some (1, 7) := by
    rw [Node.range?, Node.tokens_eq]
    rfl
  obtain ⟨text, -, order⟩ := spannedText_eq_range within apart
  have spanned : spannedText nameSource nameList.tokens = "x ,y[]".toList :=
    (text 1 7 range).trans (by decide +kernel)
  exact ⟨within, apart, range, spanned, (order _ (List.reverse_perm _)).trans spanned⟩

end JavaSurvey
