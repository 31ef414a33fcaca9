/-
# What messages tell

The message of an error names what the error is about (`Error.values_infix_message`).  Errors about
the data of a test differ in their first letter if they differ in kind, and otherwise in a value, so
that the message tells such an error from every other one (`Error.message_inj`).
-/
import LikelihoodRatio.Error
import LikelihoodRatio.Proofs.Decimal.Plain

namespace LikelihoodRatio

/-! ### Texts and numbers -/

section Texts

variable {s t v w : String} {m n : ℕ}

lemma infix_append (h : v.toList <:+: s.toList) (t : String) : v.toList <:+: (s ++ t).toList := by
  rw [String.toList_append]
  exact h.trans List.infix_append_left

lemma infix_append_self (s v : String) : v.toList <:+: (s ++ v).toList := by
  rw [String.toList_append]
  exact List.infix_append_right

/-- A text with two values among others has each of them in it. -/
lemma infix_pair {p a q b r : String} (h : v ∈ [a, b]) :
    v.toList <:+: (p ++ a ++ q ++ b ++ r).toList := by
  rcases List.mem_pair.1 h with rfl | rfl
  · exact infix_append (infix_append (infix_append (infix_append_self _ _) _) _) _
  · exact infix_append (infix_append_self _ _) _

lemma head_append {c : Char} (h : s.toList.head? = some c) (t : String) :
    (s ++ t).toList.head? = some c := by
  rw [String.toList_append, List.head?_append, h]
  rfl

/-- A text is cut in two at the first place where a character stands. -/
lemma append_cons_inj {c : Char} {xs ys zs ws : List Char} (hxs : c ∉ xs) (hys : c ∉ ys)
    (h : xs ++ c :: zs = ys ++ c :: ws) : xs = ys ∧ zs = ws := by
  induction xs generalizing ys with
  | nil =>
    cases ys with
    | nil => exact ⟨rfl, (List.cons.inj h).2⟩
    | cons y ys => exact absurd ((List.cons.inj h).1 ▸ List.mem_cons_self) hys
  | cons x xs ih =>
    cases ys with
    | nil => exact absurd ((List.cons.inj h).1 ▸ List.mem_cons_self) hxs
    | cons y ys =>
      obtain ⟨hx, hrest⟩ := List.cons.inj h
      obtain ⟨hxs, hzs⟩ := ih (fun hc => hxs (List.mem_cons_of_mem _ hc))
        (fun hc => hys (List.mem_cons_of_mem _ hc)) hrest
      exact ⟨by rw [hx, hxs], hzs⟩

lemma notMem_toString {c : Char} (hc : c.isDigit = false) (n : ℕ) : c ∉ (toString n).toList := by
  intro hmem
  have hdigit : c ∈ Decimal.digitChars n := by
    rw [Decimal.digitChars, ← Nat.toList_repr]
    exact hmem
  rw [isDigit_of_mem_digitChars hdigit] at hc
  cases hc

/-- A number at the end of a text can be told from what stands before the blank in front of it. -/
lemma append_number_inj (hw : ∃ u, w = u ++ " ")
    (h : s ++ w ++ toString m = t ++ w ++ toString n) : s = t ∧ m = n := by
  obtain ⟨u, rfl⟩ := hw
  have hlist : (s ++ u).toList ++ ' ' :: (toString m).toList =
      (t ++ u).toList ++ ' ' :: (toString n).toList := by
    simpa using congrArg String.toList h
  have hblank (k : ℕ) : ' ' ∉ (toString k).toList.reverse := by
    rw [List.mem_reverse]
    exact notMem_toString rfl k
  -- Read backwards, the number ends where the first blank stands.
  have hreverse := congrArg List.reverse hlist
  simp only [List.reverse_append, List.reverse_cons, List.append_assoc, List.singleton_append]
    at hreverse
  obtain ⟨hnumber, htext⟩ := append_cons_inj (hblank m) (hblank n) hreverse
  rw [List.reverse_inj, String.toList_inj] at hnumber htext
  exact ⟨(String.append_left_inj u).1 htext, Nat.repr_inj.1 hnumber⟩

end Texts

/-- A row or a column is told by its name. -/
lemma Marginal.name_inj {a b : Marginal} (h : a.name = b.name) : a = b := by
  have hrow (i : ℕ) : (row i).name.toList.head? = some 'r' := head_append rfl _
  have hcolumn (j : ℕ) : (column j).name.toList.head? = some 'c' := head_append rfl _
  cases a with
  | row i =>
    cases b with
    | row j => rw [Nat.repr_inj.1 ((String.append_right_inj "row ").1 h)]
    | column j =>
      have hhead := hrow i
      rw [h, hcolumn] at hhead
      cases hhead
  | column i =>
    cases b with
    | row j =>
      have hhead := hcolumn i
      rw [h, hrow] at hhead
      cases hhead
    | column j => rw [Nat.repr_inj.1 ((String.append_right_inj "column ").1 h)]

namespace Error

/-! ### Values -/

/-- What an error is about, as it is written in a message. -/
def values : Error Float → List String
  | lengthMismatch expected found => [toString expected, toString found]
  | tooFewCategories required found => [toString required, toString found]
  | negativeCount index value => [toString value, toString index]
  | nonPositiveExpected index value => [Decimal.plain value, toString index]
  | degenerateMarginal marginal => [marginal.name]
  | significanceOutOfRange level => [Decimal.plain level]
  | unknownName text kind names => text :: kind :: names
  | noRow index => [toString index]
  | belowZero number taken => [toString taken, toString number]
  | noDistribution reason => [reason]
  | vanishingStatistic => []
  | unwritable => []
  | unreadable => []

/-- A listing has each of its items in it. -/
lemma infix_listing {item : String} {items : List String} (h : item ∈ items) :
    item.toList <:+: (listing items).toList := by
  induction items with
  | nil => cases h
  | cons x items ih =>
    have hcons : listing (x :: items) = x ++ ", " ++ listing items := String.join_cons
    rw [hcons]
    rcases List.mem_cons.1 h with rfl | h
    · exact infix_append (infix_append (List.infix_refl _) _) _
    · exact (ih h).trans (infix_append_self _ _)

/-- **A message names what the error is about.** -/
theorem values_infix_message (e : Error Float) :
    ∀ v ∈ e.values, v.toList <:+: e.message.toList := by
  intro v hv
  cases e with
  | lengthMismatch expected found => exact infix_pair hv
  | tooFewCategories required found => exact infix_pair hv
  | negativeCount index value => exact infix_pair hv
  | nonPositiveExpected index value => exact infix_pair hv
  | degenerateMarginal marginal =>
    obtain rfl := List.mem_singleton.1 hv
    exact infix_append (infix_append_self _ _) _
  | significanceOutOfRange level =>
    obtain rfl := List.mem_singleton.1 hv
    exact infix_append (infix_append (infix_append_self _ _) _) _
  | unknownName text kind names =>
    rcases List.mem_cons.1 hv with rfl | hv
    · exact infix_append (infix_append (infix_append (infix_append (infix_append
        (infix_append_self _ _) _) _) _) _) _
    rcases List.mem_cons.1 hv with rfl | hv
    · exact infix_append (infix_append (infix_append (infix_append_self _ _) _) _) _
    · exact infix_append ((infix_listing hv).trans (infix_append_self _ _)) _
  | noRow index =>
    obtain rfl := List.mem_singleton.1 hv
    exact infix_append (infix_append_self _ _) _
  | belowZero number taken =>
    rcases List.mem_pair.1 hv with rfl | rfl
    · exact infix_append (infix_append (infix_append (List.infix_refl _) _) _) _
    · exact infix_append (infix_append_self _ _) _
  | noDistribution reason =>
    obtain rfl := List.mem_singleton.1 hv
    exact infix_append_self _ _
  | vanishingStatistic => cases hv
  | unwritable => cases hv
  | unreadable => cases hv

/-! ### Refusals -/

/-- Whether an error is about the data of a test.  A test needs two categories, rows and columns,
and three categories if a parameter was estimated. -/
def isRefusal {α : Type} : Error α → Bool
  | lengthMismatch .. => true
  | tooFewCategories required _ => required == 2 || required == 3
  | negativeCount .. => true
  | nonPositiveExpected .. => true
  | degenerateMarginal _ => true
  | significanceOutOfRange _ => true
  | unknownName .. => false
  | noRow _ => false
  | belowZero .. => false
  | noDistribution _ => false
  | vanishingStatistic => false
  | unwritable => false
  | unreadable => false

/-- The first letter of the message of a refusal. -/
def initial : Error Float → Option Char
  | lengthMismatch .. => some 'D'
  | tooFewCategories .. => some 'I'
  | negativeCount .. => some 'O'
  | nonPositiveExpected .. => some 'E'
  | degenerateMarginal _ => some 'T'
  | significanceOutOfRange _ => some 'S'
  | _ => none

variable {e e' : Error Float}

lemma head_message (he : e.isRefusal = true) : e.message.toList.head? = e.initial := by
  cases e with
  | lengthMismatch expected found =>
    exact head_append (head_append (head_append (head_append rfl _) _) _) _
  | tooFewCategories required found =>
    exact head_append (head_append (head_append (head_append rfl _) _) _) _
  | negativeCount index value =>
    exact head_append (head_append (head_append (head_append rfl _) _) _) _
  | nonPositiveExpected index value =>
    exact head_append (head_append (head_append (head_append rfl _) _) _) _
  | degenerateMarginal marginal => exact head_append (head_append rfl _) _
  | significanceOutOfRange level => exact head_append (head_append (head_append rfl _) _) _
  | _ => cases he

lemma message_lengthMismatch (expected found : ℕ) :
    (lengthMismatch expected found).message =
      "Dimension mismatch, expected length " ++ toString expected ++ " but found " ++
        toString found ++ "." := rfl

lemma message_tooFewCategories (required found : ℕ) :
    (tooFewCategories required found).message =
      "Insufficient dimension, at least " ++ toString required ++ " required but " ++
        toString found ++ " provided." := rfl

lemma message_negativeCount (index : ℕ) (value : ℤ) :
    (negativeCount index value).message =
      "Observed count " ++ toString value ++ " at position " ++ toString index ++
        " is negative." := rfl

lemma message_nonPositiveExpected (index : ℕ) (value : Float) :
    (nonPositiveExpected index value).message =
      "Expected value " ++ Decimal.plain value ++ " at position " ++ toString index ++
        " is not strictly positive." := rfl

lemma message_degenerateMarginal (marginal : Marginal) :
    (degenerateMarginal marginal).message =
      "The counts of " ++ marginal.name ++ " sum to zero." := rfl

lemma message_significanceOutOfRange (level : Float) :
    (significanceOutOfRange level).message =
      "Significance level " ++ Decimal.plain level ++ " is out of range, " ++
        "expected a value strictly between 0 and 1." := rfl

/-- **The message of a refusal tells it from every other one.** -/
theorem message_inj (he : e.isRefusal = true) (he' : e'.isRefusal = true)
    (h : e.message = e'.message) : e = e' := by
  have hinitial : e.initial = e'.initial := by rw [← head_message he, ← head_message he', h]
  cases e with
  | lengthMismatch expected found =>
    cases e' with
    | lengthMismatch expected' found' =>
      rw [message_lengthMismatch, message_lengthMismatch, String.append_left_inj] at h
      obtain ⟨hfront, rfl⟩ := append_number_inj ⟨" but found", rfl⟩ h
      rw [Nat.repr_inj.1 ((String.append_right_inj _).1 hfront)]
    | _ => cases hinitial
  | tooFewCategories required found =>
    cases e' with
    | tooFewCategories required' found' =>
      rw [message_tooFewCategories, message_tooFewCategories, String.append_left_inj] at h
      obtain ⟨hfront, rfl⟩ := append_number_inj ⟨" required but", rfl⟩ h
      rw [Nat.repr_inj.1 ((String.append_right_inj _).1 hfront)]
    | _ => cases hinitial
  | negativeCount index value =>
    cases e' with
    | negativeCount index' value' =>
      rw [message_negativeCount, message_negativeCount, String.append_left_inj] at h
      obtain ⟨hfront, rfl⟩ := append_number_inj ⟨" at position", rfl⟩ h
      rw [Int.repr_inj.1 ((String.append_right_inj _).1 hfront)]
    | _ => cases hinitial
  | nonPositiveExpected index value =>
    cases e' with
    | nonPositiveExpected index' value' =>
      rw [message_nonPositiveExpected, message_nonPositiveExpected, String.append_left_inj] at h
      obtain ⟨hfront, rfl⟩ := append_number_inj ⟨" at position", rfl⟩ h
      rw [Decimal.plain_inj.1 ((String.append_right_inj _).1 hfront)]
    | _ => cases hinitial
  | degenerateMarginal marginal =>
    cases e' with
    | degenerateMarginal marginal' =>
      rw [message_degenerateMarginal, message_degenerateMarginal, String.append_left_inj,
        String.append_right_inj] at h
      rw [Marginal.name_inj h]
    | _ => cases hinitial
  | significanceOutOfRange level =>
    cases e' with
    | significanceOutOfRange level' =>
      rw [message_significanceOutOfRange, message_significanceOutOfRange, String.append_left_inj,
        String.append_left_inj, String.append_right_inj] at h
      rw [Decimal.plain_inj.1 h]
    | _ => cases hinitial
  | _ => cases he

end Error

end LikelihoodRatio
