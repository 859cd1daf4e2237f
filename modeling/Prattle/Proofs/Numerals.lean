import Mathlib.Data.List.Induction
import Mathlib.Data.Nat.Digits.Defs
import Mathlib.Tactic.Ring
import Prattle.Numeral

/-!
# What a literal stands for

`Announces` says how a literal shows its radix, and `Denotes` which number digits stand for: their sum
weighted by the powers of the radix.

* **Every text announces one radix**, the one that it is split by (`announces_iff`).
* **Digits are read just if they are digits of the radix** (`mapM_digitBelow?_eq_some_iff`), so a literal
  denotes a number or has no magnitude (`magnitude?_eq_some_iff`).
* **Nothing on the way to a value leaves the word** (`foldlM_push?`): steps that check every product and
  every sum give up only on numbers that are too large, because no digit makes a number smaller.
* **A literal has a value just if it denotes a number that fits the word** (`value_of_literal`), whatever
  else stands in it and however long it is.
-/

namespace Prattle.Numeral

/-- The radix that a text announces, and the digits behind the announcement. -/
inductive Announces : List Char → Nat → List Char → Prop where
  | hexadecimal (digits : List Char) : Announces ('0' :: 'x' :: digits) 16 digits
  | octal (digits : List Char) : Announces ('0' :: 'o' :: digits) 8 digits
  | binary (digits : List Char) : Announces ('0' :: 'b' :: digits) 2 digits
  /-- A zero with more behind it. -/
  | zero {c : Char} {digits : List Char} (others : c ≠ 'x' ∧ c ≠ 'o' ∧ c ≠ 'b') :
      Announces ('0' :: c :: digits) 8 (c :: digits)
  | plain {digits : List Char} (others : ∀ c rest, digits ≠ '0' :: c :: rest) :
      Announces digits 10 digits

/-- The characters are these digits, each of them below the radix. -/
def SpellDigits (radix : Nat) (cs : List Char) (ns : List Nat) : Prop :=
  cs = ns.map Nat.digitChar ∧ ∀ n ∈ ns, n < radix

/-- The characters are the digits of a number, the most significant first. -/
def Denotes (radix : Nat) (cs : List Char) (value : Nat) : Prop :=
  ∃ ns, SpellDigits radix cs ns ∧ Nat.ofDigits radix ns.reverse = value

variable {radix n value : Nat} {c : Char} {cs digits : List Char} {ns : List Nat} {text : String}

/-! ### The radix -/

/-- What is split off a literal is what announces its radix. -/
theorem announces_splitRadix (cs : List Char) : Announces cs (splitRadix cs).1 (splitRadix cs).2 := by
  fun_cases splitRadix cs with
  | case1 digits => exact .hexadecimal digits
  | case2 digits => exact .octal digits
  | case3 digits => exact .binary digits
  | case4 c digits hx ho hb => exact .zero ⟨hx, ho, hb⟩
  | case5 cs hx ho hb hzero => exact .plain hzero

/-- **Every text announces one radix**, and it is split there. -/
theorem announces_iff : Announces cs radix digits ↔ splitRadix cs = (radix, digits) := by
  constructor
  · intro h
    cases h with
    | hexadecimal | octal | binary => rfl
    | zero others => exact splitRadix.eq_4 _ _ others.1 others.2.1 others.2.2
    | plain others =>
      exact splitRadix.eq_5 _ (fun _ => others _ _) (fun _ => others _ _) (fun _ => others _ _) others
  · intro h
    have hannounces := announces_splitRadix cs
    rwa [h] at hannounces

/-- Every radix that is announced is positive and at most sixteen. -/
theorem Announces.radix_le (h : Announces cs radix digits) : 0 < radix ∧ radix ≤ 16 := by
  cases h <;> simp

/-! ### The digits -/

/-- The digits are the decimal ones, and the letters from `a` on behind them. -/
theorem toNat_digitChar (h : n < 16) :
    (Nat.digitChar n).toNat = if n < 10 then 48 + n else 87 + n := by
  have hall : ∀ n < 16, (Nat.digitChar n).toNat = if n < 10 then 48 + n else 87 + n := by decide
  exact hall n h

/-- A character is a digit of one value, and each value has one digit. -/
theorem digit?_eq_some_iff (h : n < 16) : digit? c = some n ↔ c = Nat.digitChar n := by
  constructor
  · intro hc
    rw [← Char.toNat_inj, toNat_digitChar h]
    unfold digit? at hc
    split_ifs at hc with hdecimal hletter
    · have hlow : 48 ≤ c.toNat := UInt32.le_iff_toNat_le.mp hdecimal.1
      have hhigh : c.toNat ≤ 57 := UInt32.le_iff_toNat_le.mp hdecimal.2
      have hn : c.toNat - 48 = n := Option.some.inj hc
      rw [if_pos (by omega)]
      omega
    · have hlow : 97 ≤ c.toNat := UInt32.le_iff_toNat_le.mp hletter.1
      have hn : c.toNat - 97 + 10 = n := Option.some.inj hc
      rw [if_neg (by omega)]
      omega
  · rintro rfl
    have hall : ∀ n < 16, digit? (Nat.digitChar n) = some n := by decide
    exact hall n h

/-- A character is a digit of a radix if it is a digit whose value is below the radix. -/
theorem digitBelow?_eq_some_iff (hradix : radix ≤ 16) :
    digitBelow? radix c = some n ↔ c = Nat.digitChar n ∧ n < radix := by
  rw [digitBelow?, Option.filter_eq_some_iff, decide_eq_true_iff]
  apply and_congr_left
  intro hn
  exact digit?_eq_some_iff (Nat.lt_of_lt_of_le hn hradix)

/-- **Characters are read as digits just if they are digits of the radix.** -/
theorem mapM_digitBelow?_eq_some_iff (hradix : radix ≤ 16) :
    cs.mapM (digitBelow? radix) = some ns ↔ SpellDigits radix cs ns := by
  induction cs generalizing ns with
  | nil => cases ns <;> simp [SpellDigits]
  | cons c cs ih =>
    rw [List.mapM_cons]
    constructor
    · intro h
      obtain ⟨n, hn, hrest⟩ := Option.bind_eq_some_iff.mp h
      obtain ⟨ns', hns', heq⟩ := Option.bind_eq_some_iff.mp hrest
      obtain rfl : n :: ns' = ns := Option.some.inj heq
      obtain ⟨rfl, hlt⟩ := (digitBelow?_eq_some_iff hradix).mp hn
      obtain ⟨rfl, hall⟩ := ih.mp hns'
      exact ⟨rfl, List.forall_mem_cons.mpr ⟨hlt, hall⟩⟩
    · rintro ⟨hcs, hall⟩
      rcases ns with _ | ⟨n, ns⟩
      · cases hcs
      · obtain ⟨hc, hcs⟩ := List.cons.inj hcs
        obtain ⟨hlt, hall⟩ := List.forall_mem_cons.mp hall
        have hn := (digitBelow?_eq_some_iff hradix).mpr ⟨hc, hlt⟩
        have hns := ih.mpr ⟨hcs, hall⟩
        simp [hn, hns]

/-- One more digit multiplies the value by the radix and adds the digit. -/
theorem ofDigits_concat (radix : Nat) (ns : List Nat) (n : Nat) :
    ofDigits radix (ns ++ [n]) = ofDigits radix ns * radix + n := by
  simp [ofDigits]

/-- Taking digits in from the left adds them up by their weights. -/
theorem ofDigits_eq (radix : Nat) (ns : List Nat) :
    ofDigits radix ns = Nat.ofDigits radix ns.reverse := by
  induction ns using List.reverseRecOn with
  | nil => rfl
  | append_singleton ns n ih =>
    rw [ofDigits_concat, ih, List.reverse_concat, Nat.ofDigits_cons]
    ring

/-- **A literal has a magnitude just if it denotes a number.** -/
theorem magnitude?_eq_some_iff (h : Announces (text.toList.map Char.toLower) radix digits) :
    magnitude? text = some n ↔ digits ≠ [] ∧ Denotes radix digits n := by
  have hsplit := announces_iff.mp h
  have hradix := h.radix_le.2
  unfold magnitude?
  rw [hsplit]
  by_cases hnil : digits = []
  · simp [hnil]
  · simp [hnil, Denotes, mapM_digitBelow?_eq_some_iff hradix, ofDigits_eq]

/-! ### The value -/

/-- The value with one digit more, as long as neither the product nor the sum is too large. -/
def push? (radix value digit : Nat) : Option Nat :=
  if value * radix ≤ maxValue ∧ value * radix + digit ≤ maxValue then some (value * radix + digit)
  else none

/-- No digit makes a number smaller. -/
theorem le_foldl (hradix : 0 < radix) (ns : List Nat) (value : Nat) :
    value ≤ ns.foldl (fun value digit => value * radix + digit) value := by
  induction ns generalizing value with
  | nil => exact Nat.le_refl _
  | cons n ns ih =>
    calc value ≤ value * radix := Nat.le_mul_of_pos_right _ hradix
      _ ≤ value * radix + n := Nat.le_add_right _ _
      _ ≤ _ := ih _

/-- **Steps that check every product and every sum give up only on numbers that are too large.** -/
theorem foldlM_push? (hradix : 0 < radix) (hvalue : value ≤ maxValue) :
    ns.foldlM (push? radix) value =
      (some (ns.foldl (fun value digit => value * radix + digit) value)).filter (· ≤ maxValue) := by
  induction ns generalizing value with
  | nil =>
    rw [List.foldl_nil, Option.filter_some, if_pos (decide_eq_true hvalue)]
    rfl
  | cons n ns ih =>
    rw [List.foldlM_cons, List.foldl_cons, push?]
    by_cases hfits : value * radix + n ≤ maxValue
    · have hproduct : value * radix ≤ maxValue := Nat.le_trans (Nat.le_add_right _ _) hfits
      rw [if_pos ⟨hproduct, hfits⟩]
      exact ih hfits
    · have hlarge := le_foldl hradix ns (value * radix + n)
      have hno : ¬ ns.foldl (fun value digit => value * radix + digit) (value * radix + n) ≤ maxValue := by
        omega
      rw [if_neg fun h => hfits h.2, Option.filter_some, if_neg (by simpa using hno)]
      rfl

/-- A literal has a value if its magnitude is no more than the largest integer. -/
theorem value?_eq_some {v : Int64} :
    value? text = some v ↔ ∃ n, magnitude? text = some n ∧ n ≤ 2 ^ 63 - 1 ∧ v.toInt = n := by
  have hmax : maxValue = 2 ^ 63 - 1 := rfl
  rw [value?, Option.map_eq_some_iff]
  apply exists_congr
  intro n
  rw [Option.filter_eq_some_iff, decide_eq_true_iff, hmax, and_assoc]
  apply and_congr_right
  intro hn
  apply and_congr_right
  intro hle
  have hint : (Int64.ofNat n).toInt = n := Int64.toInt_ofNat_of_lt (by omega)
  rw [← hint, Int64.toInt_inj, eq_comm]

/-- **A literal has a value just if it denotes a number that fits a signed word of 64 bits.** In lower case it
announces one radix, and it has to have digits behind that, all of them below the radix. Then the value can be
computed digit by digit with no product and no sum outside of the word. -/
theorem value_of_literal (text : String) :
    ∃ radix digits, Announces (text.toList.map Char.toLower) radix digits ∧
      (∀ radix' digits', Announces (text.toList.map Char.toLower) radix' digits' →
        radix' = radix ∧ digits' = digits) ∧
      (∀ v : Int64, value? text = some v ↔
        digits ≠ [] ∧ ∃ n : Nat, Denotes radix digits n ∧ n ≤ 2 ^ 63 - 1 ∧ v.toInt = n) ∧
      ∀ ns, ns ≠ [] → SpellDigits radix digits ns →
        value? text = (ns.foldlM (push? radix) 0).map Int64.ofNat := by
  rcases hsplit : splitRadix (text.toList.map Char.toLower) with ⟨radix, digits⟩
  have h := announces_iff.mpr hsplit
  refine ⟨radix, digits, h, ?_, ?_, ?_⟩
  · intro radix' digits' h'
    rw [announces_iff, hsplit] at h'
    cases h'
    exact ⟨rfl, rfl⟩
  · intro v
    simp only [value?_eq_some, magnitude?_eq_some_iff h, and_assoc, exists_and_left]
  · intro ns hne hns
    have hdigits : digits ≠ [] := by
      rw [hns.1]
      simpa using hne
    have hmagnitude := (magnitude?_eq_some_iff h).mpr ⟨hdigits, ns, hns, rfl⟩
    rw [value?, hmagnitude, foldlM_push? h.radix_le.1 (Nat.zero_le _), ← ofDigits_eq]
    rfl

/-- A zero in front makes digits octal, unless it stands alone, and the largest word still has a value. -/
example : value? "0" = some 0 ∧ value? "017" = some 15 ∧ value? "09" = none ∧ value? "0X" = none ∧
    value? "0X7fffffffffffffff" = some 0x7fffffffffffffff ∧ value? "9223372036854775808" = none := by
  decide

end Prattle.Numeral
