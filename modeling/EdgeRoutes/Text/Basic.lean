/-! Texts as lists of characters: their order, and how one stands inside another.

The order is decided by the first character in which two texts differ, where characters come
in the order of their numbers. A text comes before every longer text that begins with it.
-/

set_option autoImplicit false

namespace EdgeRoutes.Text

def charsBefore : List Char → List Char → Bool
  | _, [] => false
  | [], _ :: _ => true
  | first :: rest, other :: others =>
    if first = other then charsBefore rest others else decide (first.toNat < other.toNat)

theorem charsBefore_irrefl (chars : List Char) : charsBefore chars chars = false := by
  induction chars with
  | nil => rfl
  | cons first rest same => simpa [charsBefore] using same

theorem charsBefore_trans {left middle right : List Char}
    (first : charsBefore left middle = true) (second : charsBefore middle right = true) :
    charsBefore left right = true := by
  induction left generalizing middle right with
  | nil =>
    cases right with
    | nil => cases middle <;> simp [charsBefore] at second
    | cons char rest => rfl
  | cons a left inductive_step =>
    cases middle with
    | nil => simp [charsBefore] at first
    | cons b middle =>
      cases right with
      | nil => simp [charsBefore] at second
      | cons c right =>
        simp only [charsBefore] at first second ⊢
        by_cases ab : a = b
        · subst ab
          by_cases ac : a = c
          · subst ac
            simp only [if_true] at first second ⊢
            exact inductive_step first second
          · simpa [ac] using second
        · by_cases bc : b = c
          · subst bc
            simpa [ab] using first
          · simp only [ab, bc, if_false, decide_eq_true_eq] at first second
            have less : a.toNat < c.toNat := Nat.lt_trans first second
            have ac : a ≠ c := fun same => absurd (same ▸ less) (Nat.lt_irrefl _)
            simpa [ac] using less

theorem charsBefore_total {left right : List Char} (differ : left ≠ right) :
    charsBefore left right = true ∨ charsBefore right left = true := by
  induction left generalizing right with
  | nil =>
    cases right with
    | nil => exact absurd rfl differ
    | cons char rest => exact Or.inl rfl
  | cons a left inductive_step =>
    cases right with
    | nil => exact Or.inr rfl
    | cons b right =>
      simp only [charsBefore]
      by_cases ab : a = b
      · subst ab
        simp only [if_true]
        exact inductive_step fun same => differ (congrArg (a :: ·) same)
      · have ba : b ≠ a := fun same => ab same.symm
        simp only [ab, ba, if_false, decide_eq_true_eq]
        exact Nat.lt_or_gt_of_ne fun same => ab (Char.toNat_inj.mp same)

def Before (first second : String) : Prop :=
  charsBefore first.toList second.toList = true

instance (first second : String) : Decidable (Before first second) :=
  inferInstanceAs (Decidable (_ = true))

theorem Before.irrefl (text : String) : ¬ Before text text := by
  simp [Before, charsBefore_irrefl]

theorem Before.trans {first second third : String} (left : Before first second)
    (right : Before second third) : Before first third :=
  charsBefore_trans left right

theorem Before.total {first second : String} (differ : first ≠ second) :
    Before first second ∨ Before second first :=
  charsBefore_total fun same => differ (String.toList_injective same)

def startsWith (text start : String) : Bool :=
  start.toList.isPrefixOf text.toList

theorem startsWith_iff (text start : String) :
    startsWith text start = true ↔ start.toList <+: text.toList :=
  List.isPrefixOf_iff_prefix

def endsWith (text ending : String) : Bool :=
  ending.toList.isSuffixOf text.toList

theorem endsWith_iff (text ending : String) :
    endsWith text ending = true ↔ ending.toList <:+ text.toList :=
  List.isSuffixOf_iff_suffix

/-- Whether `part` stands somewhere in the given characters; the empty part stands everywhere. -/
def occursIn (part : List Char) : List Char → Bool
  | [] => part.isEmpty
  | first :: rest => part.isPrefixOf (first :: rest) || occursIn part rest

theorem occursIn_iff (part chars : List Char) : occursIn part chars = true ↔ part <:+: chars := by
  induction chars with
  | nil => simp [occursIn]
  | cons first rest ih =>
    simp only [occursIn, Bool.or_eq_true, List.isPrefixOf_iff_prefix, ih, List.infix_cons_iff]

def contains (text part : String) : Bool :=
  occursIn part.toList text.toList

theorem contains_iff (text part : String) :
    contains text part = true ↔ part.toList <:+: text.toList :=
  occursIn_iff part.toList text.toList

end EdgeRoutes.Text
