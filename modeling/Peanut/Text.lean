import Mathlib.Algebra.Group.Int.Defs
import Mathlib.Algebra.Group.Nat.Defs
import Mathlib.Data.List.Basic
import Mathlib.Data.List.Infix
import Mathlib.Data.List.TakeWhile

/-!
# Rust string functions

The handlers normalise their inputs with a handful of `str` methods.  They are
modelled on the character list of a Lean string: `trim` follows Rust in
stripping every character with the Unicode `White_Space` property, and `len` is
the length of the UTF-8 encoding, which is what the length limits of the source
compare against.
-/

namespace Peanut

/-- `char::is_whitespace`: the Unicode `White_Space` property. -/
def isWhitespace (c : Char) : Bool :=
  let n := c.toNat
  (9 ≤ n && n ≤ 13) || n == 32 || n == 0x85 || n == 0xA0 || n == 0x1680 ||
    (0x2000 ≤ n && n ≤ 0x200A) || n == 0x2028 || n == 0x2029 || n == 0x202F ||
    n == 0x205F || n == 0x3000

/-- `str::trim`. -/
def trim (s : String) : String :=
  String.ofList ((s.toList.dropWhile isWhitespace).reverse.dropWhile isWhitespace).reverse

variable {p : Char → Bool}

theorem dropWhile_eq_self {l : List Char} (h : ∀ c ∈ l, p c = false) :
    l.dropWhile p = l := by
  cases l with
  | nil => rfl
  | cons c l => simp [h c (by simp)]

variable {s a b : String}

/-- Text without white space is its own `trim`. -/
theorem trim_eq_self (h : ∀ c ∈ s.toList, isWhitespace c = false) : trim s = s := by
  have hrev : ∀ c ∈ s.toList.reverse, isWhitespace c = false :=
    fun c hc => h c (List.mem_reverse.mp hc)
  rw [trim, dropWhile_eq_self h, dropWhile_eq_self hrev, List.reverse_reverse, String.ofList_toList]

theorem dropWhile_dropWhile (p : Char → Bool) (l : List Char) :
    (l.dropWhile p).dropWhile p = l.dropWhile p := by
  induction l with
  | nil => rfl
  | cons c l ih =>
    cases hc : p c with
    | true => simpa [hc] using ih
    | false => simp [hc]

theorem dropWhile_of_initial {l m : List Char} (hpre : m <+: l)
    (hl : l.dropWhile p = l) : m.dropWhile p = m := by
  cases m with
  | nil => rfl
  | cons c m =>
    obtain ⟨t, rfl⟩ := hpre
    cases hc : p c with
    | false => simp [hc]
    | true =>
      have hlen : ((c :: m ++ t).dropWhile p).length ≤ (m ++ t).length := by
        rw [List.cons_append, List.dropWhile_cons_of_pos hc]
        exact (List.dropWhile_sublist p).length_le
      rw [hl] at hlen
      simp only [List.cons_append, List.length_cons] at hlen
      omega

theorem trim_trim (s : String) : trim (trim s) = trim s := by
  have hfront : ((s.toList.dropWhile isWhitespace).reverse.dropWhile isWhitespace).reverse <+:
      s.toList.dropWhile isWhitespace := by
    rw [← List.reverse_suffix, List.reverse_reverse]
    exact List.dropWhile_suffix isWhitespace
  unfold trim
  rw [String.toList_ofList, dropWhile_of_initial hfront (dropWhile_dropWhile _ _),
    List.reverse_reverse, dropWhile_dropWhile]

/-- A text that is no shorter when it is trimmed is its own `trim`. -/
theorem trim_eq_self_of_length (h : s.length ≤ (trim s).length) : trim s = s := by
  have hfront : s.toList.dropWhile isWhitespace <:+ s.toList := List.dropWhile_suffix _
  have hback : ((s.toList.dropWhile isWhitespace).reverse.dropWhile isWhitespace).reverse <+:
      s.toList.dropWhile isWhitespace := by
    rw [← List.reverse_suffix, List.reverse_reverse]
    exact List.dropWhile_suffix isWhitespace
  rw [← String.length_toList, ← String.length_toList, trim, String.toList_ofList] at h
  rw [trim, hback.eq_of_length_le (hfront.length_le.trans h),
    hfront.eq_of_length_le (h.trans hback.length_le), String.ofList_toList]

variable {c : Char}

theorem mem_of_mem_trim (h : c ∈ (trim s).toList) : c ∈ s.toList := by
  rw [trim, String.toList_ofList, List.mem_reverse] at h
  have hmem := (List.dropWhile_sublist _).subset h
  rw [List.mem_reverse] at hmem
  exact (List.dropWhile_sublist _).subset hmem

/-- `str::trim_start`. -/
def trimStart (s : String) : String := String.ofList (s.toList.dropWhile isWhitespace)

theorem trim_append_word (s : String) {word : String} (hne : word ≠ "")
    (hword : ∀ c ∈ word.toList, isWhitespace c = false) :
      trim (s ++ word) = trimStart s ++ word := by
  have hfront : (s ++ word).toList.dropWhile isWhitespace =
      s.toList.dropWhile isWhitespace ++ word.toList := by
    rw [String.toList_append, List.dropWhile_append]
    split
    · rename_i hblank
      rw [dropWhile_eq_self hword, List.isEmpty_iff.mp hblank, List.nil_append]
    · rfl
  have hback : (word.toList.reverse ++ (s.toList.dropWhile isWhitespace).reverse).dropWhile
      isWhitespace = word.toList.reverse ++ (s.toList.dropWhile isWhitespace).reverse := by
    have hlast : word.toList.reverse ≠ [] := by simpa using hne
    obtain ⟨c, rest, heq⟩ := List.exists_cons_of_ne_nil hlast
    have hc : isWhitespace c = false := by
      apply hword
      rw [← List.mem_reverse, heq]
      exact List.mem_cons_self
    rw [heq, List.cons_append, List.dropWhile_cons_of_neg (by simp [hc])]
  unfold trim trimStart
  rw [hfront, List.reverse_append, hback, ← List.reverse_append, List.reverse_reverse,
    String.ofList_append, String.ofList_toList]

/-- `trim().is_empty()`. -/
def isBlank (s : String) : Bool := trim s == ""

/-- `str::len`: bytes of the UTF-8 encoding. -/
def len (s : String) : Nat := s.utf8ByteSize

/-- `char::is_ascii_lowercase`. -/
def isAsciiLowercase (c : Char) : Bool := 'a'.toNat ≤ c.toNat && c.toNat ≤ 'z'.toNat

/-- `char::is_ascii_uppercase`. -/
def isAsciiUppercase (c : Char) : Bool := 'A'.toNat ≤ c.toNat && c.toNat ≤ 'Z'.toNat

/-- `char::is_ascii_digit`. -/
def isAsciiDigit (c : Char) : Bool := '0'.toNat ≤ c.toNat && c.toNat ≤ '9'.toNat

/-- `str.chars().all(p)`. -/
def charsAll (p : Char → Bool) (s : String) : Bool := s.toList.all p

/-- `str::split` at a character. -/
def splitAt (c : Char) (s : String) : List String := (s.toList.splitOn c).map String.ofList

theorem splitAt_intercalate {parts : List String} (h : ∀ p ∈ parts, c ∉ p.toList)
    (hne : parts ≠ []) : splitAt c ((String.ofList [c]).intercalate parts) = parts := by
  rw [splitAt, String.toList_intercalate, String.toList_ofList, List.splitOn_intercalate]
  · simp
  · intro l hl
    obtain ⟨p, hp, rfl⟩ := List.mem_map.mp hl
    exact h p hp
  · simpa using hne

theorem mem_intercalate_singleton {c d : Char} {l : List (List Char)} :
    d ∈ List.intercalate [c] l → d = c ∨ ∃ w ∈ l, d ∈ w := by
  induction l with
  | nil => simp
  | cons first rest ih =>
    intro hd
    cases rest with
    | nil => exact .inr ⟨first, by simp, by simpa using hd⟩
    | cons next rest =>
      rw [List.intercalate_cons_cons, List.mem_append, List.mem_append, List.mem_singleton] at hd
      rcases hd with (hd | hd) | hd
      · exact .inr ⟨first, List.mem_cons_self, hd⟩
      · exact .inl hd
      · obtain heq | ⟨w, hw, hdw⟩ := ih hd
        · exact .inl heq
        · exact .inr ⟨w, List.mem_cons_of_mem _ hw, hdw⟩

theorem mem_intercalate_of_mem {c d : Char} {l : List (List Char)} :
    ∀ w ∈ l, d ∈ w → d ∈ List.intercalate [c] l := by
  induction l with
  | nil => simp
  | cons first rest ih =>
    intro w hw hd
    cases rest with
    | nil =>
      obtain rfl := List.mem_singleton.mp hw
      simpa using hd
    | cons next rest =>
      rw [List.intercalate_cons_cons, List.mem_append, List.mem_append]
      rcases List.mem_cons.mp hw with rfl | hw
      · exact .inl (.inl hd)
      · exact .inr (ih w hw hd)

theorem mem_of_mem_splitAt {c d : Char} {s part : String} (h : part ∈ splitAt c s)
    (hd : d ∈ part.toList) : d ∈ s.toList := by
  obtain ⟨w, hw, rfl⟩ := List.mem_map.mp h
  rw [String.toList_ofList] at hd
  have hmem := mem_intercalate_of_mem (c := c) w hw hd
  rwa [List.intercalate_splitOn] at hmem

theorem forall_mem_literal {l : List Char} (h : l.all p = true) :
    ∀ c ∈ (String.ofList l).toList, p c = true := by
  rwa [String.toList_ofList, ← List.all_eq_true]

theorem not_mem_literal {l : List Char} (h : l.contains c = false) :
    c ∉ (String.ofList l).toList := by
  rwa [String.toList_ofList, ← List.contains_iff_mem, Bool.not_eq_true]

/-- `str::split_once` at a character. -/
def splitOnce (c : Char) (s : String) : Option (String × String) :=
  if s.toList.contains c then
    some (String.ofList (s.toList.takeWhile (· != c)),
      String.ofList ((s.toList.dropWhile (· != c)).drop 1))
  else none

theorem splitOnce_append (h : c ∉ a.toList) (b : String) :
    splitOnce c (a ++ String.ofList [c] ++ b) = some (a, b) := by
  have hne : ∀ d ∈ a.toList, (d != c) = true := by
    intro d hd
    rw [bne_iff_ne]
    rintro rfl
    exact h hd
  have htext : (a ++ String.ofList [c] ++ b).toList = a.toList ++ c :: b.toList := by
    simp
  unfold splitOnce
  rw [htext, List.takeWhile_append_of_pos hne, List.dropWhile_append_of_pos hne]
  simp

/-- What `split_once` finds is the text up to its first separator, and the rest. -/
theorem splitOnce_eq_some (h : splitOnce c s = some (a, b)) :
    s = a ++ String.ofList [c] ++ b ∧ c ∉ a.toList := by
  unfold splitOnce at h
  split at h
  · rename_i hc
    rw [List.contains_iff_mem] at hc
    obtain ⟨ha, hb⟩ := Prod.mk.inj (Option.some.inj h)
    obtain ⟨d, rest, hrest⟩ : ∃ d rest, s.toList.dropWhile (· != c) = d :: rest := by
      cases hdrop : s.toList.dropWhile (· != c) with
      | nil =>
        have hall := List.dropWhile_eq_nil_iff.mp hdrop c hc
        simp at hall
      | cons d rest => exact ⟨d, rest, rfl⟩
    have hd : d = c := by
      have hfirst := List.head?_dropWhile_not (· != c) s.toList
      rw [hrest] at hfirst
      simpa using hfirst
    have hsplit : s.toList = s.toList.takeWhile (· != c) ++ c :: rest := by
      conv_lhs => rw [← List.takeWhile_append_dropWhile (p := (· != c)) (l := s.toList), hrest, hd]
    refine ⟨?_, ?_⟩
    · apply String.ext
      rw [← ha, ← hb, hrest]
      simpa using hsplit
    · rw [← ha, String.toList_ofList]
      intro hmem
      have hne := List.mem_takeWhile_imp hmem
      simp at hne
  · cases h

/-- The two halves around the last separator, as `rsplitn(2, c)` gives them. -/
def rsplitOnce (c : Char) (s : String) : Option (String × String) :=
  let reversed := s.toList.reverse
  if reversed.contains c then
    some (String.ofList ((reversed.dropWhile (· != c)).drop 1).reverse,
      String.ofList (reversed.takeWhile (· != c)).reverse)
  else none

theorem rsplitOnce_eq_none (h : c ∉ s.toList) : rsplitOnce c s = none := by
  have hnot : ¬ s.toList.reverse.contains c = true := by
    rw [List.contains_iff_mem, List.mem_reverse]
    exact h
  rw [rsplitOnce, if_neg hnot]

theorem rsplitOnce_append (h : c ∉ b.toList) (a : String) :
    rsplitOnce c (a ++ String.ofList [c] ++ b) = some (a, b) := by
  have hne : ∀ d ∈ b.toList.reverse, (d != c) = true := by
    intro d hd
    rw [bne_iff_ne]
    rintro rfl
    exact h (List.mem_reverse.mp hd)
  have htext : (a ++ String.ofList [c] ++ b).toList.reverse =
      b.toList.reverse ++ c :: a.toList.reverse := by
    simp
  unfold rsplitOnce
  dsimp only
  rw [htext, List.takeWhile_append_of_pos hne, List.dropWhile_append_of_pos hne]
  simp

/-- `str::trim_start_matches` of a character. -/
def trimStartMatches (c : Char) (s : String) : String := String.ofList (s.toList.dropWhile (· == c))

/-- `str::trim_matches` of a character. -/
def strTrimMatches (c : Char) (s : String) : String :=
  String.ofList ((s.toList.dropWhile (· == c)).reverse.dropWhile (· == c)).reverse

/-- Text without the character is its own `trim_matches`. -/
theorem strTrimMatches_eq_self (h : ∀ d ∈ s.toList, (d == c) = false) :
    strTrimMatches c s = s := by
  have hrev : ∀ d ∈ s.toList.reverse, (d == c) = false := fun d hd => h d (List.mem_reverse.mp hd)
  rw [strTrimMatches, dropWhile_eq_self h, dropWhile_eq_self hrev, List.reverse_reverse,
    String.ofList_toList]

theorem strTrimMatches_of_ends (hhead : s.toList.head? ≠ some c)
    (hlast : s.toList.getLast? ≠ some c) : strTrimMatches c s = s := by
  have hkeep : ∀ l : List Char, l.head? ≠ some c → l.dropWhile (· == c) = l := by
    intro l hl
    cases l with
    | nil => rfl
    | cons d l =>
      rw [List.dropWhile_cons_of_neg]
      rw [beq_iff_eq]
      rintro rfl
      exact hl rfl
  rw [strTrimMatches, hkeep _ hhead, hkeep, List.reverse_reverse, String.ofList_toList]
  rwa [List.head?_reverse]

/-- `str::contains` of a text. -/
def strContains (needle s : String) : Bool := s.toList.tails.any needle.toList.isPrefixOf

theorem strContains_of_suffix {needle s t : String} (hsuffix : s.toList <:+ t.toList)
    (h : strContains needle s = true) : strContains needle t = true := by
  simp only [strContains, List.any_eq_true, List.mem_tails] at *
  obtain ⟨tail, htail, hstart⟩ := h
  exact ⟨tail, htail.trans hsuffix, hstart⟩

theorem strContains_singleton :
    strContains (String.ofList [c]) s = true ↔ c ∈ s.toList := by
  simp only [strContains, List.any_eq_true, List.mem_tails, String.toList_ofList]
  constructor
  · rintro ⟨tail, htail, hstart⟩
    rw [List.isPrefixOf_iff_prefix] at hstart
    exact htail.subset (hstart.subset (List.mem_singleton_self c))
  · intro hmem
    obtain ⟨init, rest, hsplit⟩ := List.append_of_mem hmem
    refine ⟨c :: rest, ⟨init, hsplit.symm⟩, ?_⟩
    rw [List.isPrefixOf_iff_prefix]
    exact ⟨rest, rfl⟩

/-- `str::as_bytes`. -/
def asBytes (s : String) : List UInt8 := s.toList.flatMap String.utf8EncodeChar

theorem toByteArray_eq (text : String) : text.toByteArray = ⟨(asBytes text).toArray⟩ := by
  conv_lhs => rw [← String.ofList_toList (s := text), String.toByteArray_ofList]
  exact ByteArray.ext List.data_toByteArray

/-- `char::to_digit(16)`. -/
def hexDigit (c : Char) : Option Nat :=
  if '0' ≤ c ∧ c ≤ '9' then some (c.toNat - 48)
  else if 'a' ≤ c ∧ c ≤ 'f' then some (c.toNat - 87)
  else if 'A' ≤ c ∧ c ≤ 'F' then some (c.toNat - 55)
  else none

/-- Byte order of the UTF-8 encoding, which is code point order: the key order
    of every `BTreeMap<String, _>`. -/
def charsLt : List Char → List Char → Bool
  | _, [] => false
  | [], _ :: _ => true
  | a :: as, b :: bs => decide (a.toNat < b.toNat) || (a == b && charsLt as bs)

/-- `str` comparison `a < b`. -/
def strLt (a b : String) : Bool := charsLt a.toList b.toList

theorem toNat_digit {n : Nat} (h : n < 10) : (Char.ofNat (48 + n)).toNat = 48 + n := by
  have hall : ∀ i : Fin 10, (Char.ofNat (48 + i)).toNat = 48 + i := by decide
  exact hall ⟨n, h⟩

@[simp] theorem charsLt_cons_self (c : Char) (as bs : List Char) :
    charsLt (c :: as) (c :: bs) = charsLt as bs := by
  simp [charsLt]

theorem charsLt_irrefl : ∀ l : List Char, charsLt l l = false
  | [] => rfl
  | c :: l => by simp [charsLt, charsLt_irrefl l]

theorem strLt_irrefl (s : String) : strLt s s = false := charsLt_irrefl s.toList

theorem charsLt_asymm : ∀ {a b : List Char}, charsLt a b = true → charsLt b a = false
  | [], _ :: _, _ => rfl
  | x :: a, y :: b, h => by
      simp only [charsLt, Bool.or_eq_true, Bool.and_eq_true, decide_eq_true_eq, beq_iff_eq] at h
      simp only [charsLt, Bool.or_eq_false_iff, Bool.and_eq_false_iff, decide_eq_false_iff_not,
        beq_eq_false_iff_ne]
      rcases h with h | ⟨rfl, h⟩
      · refine ⟨by omega, .inl ?_⟩
        rintro rfl
        omega
      · exact ⟨by omega, .inr (charsLt_asymm h)⟩

theorem strLt_asymm (h : strLt a b = true) : strLt b a = false := charsLt_asymm h

theorem charsLt_antisymm : ∀ {a b : List Char}, charsLt a b = false → charsLt b a = false → a = b
  | [], [], _, _ => rfl
  | [], _ :: _, h, _ => by simp [charsLt] at h
  | _ :: _, [], _, h => by simp [charsLt] at h
  | x :: a, y :: b, hab, hba => by
      simp only [charsLt, Bool.or_eq_false_iff, Bool.and_eq_false_iff, decide_eq_false_iff_not,
        beq_eq_false_iff_ne] at hab hba
      have hxy : x = y := Char.toNat_inj.mp (by omega)
      subst hxy
      have htail : a = b := charsLt_antisymm (by simpa using hab.2) (by simpa using hba.2)
      rw [htail]

theorem strLt_antisymm (h : strLt a b = false) (h' : strLt b a = false) : a = b :=
  String.toList_inj.mp (charsLt_antisymm h h')

/-- What is less than a third text is less than a second or the second is less
    than the third. -/
theorem charsLt_cotrans : ∀ {a c : List Char} (b : List Char), charsLt a c = true →
    charsLt a b = true ∨ charsLt b c = true
  | [], _ :: _, [], _ => .inr rfl
  | [], _ :: _, _ :: _, _ => .inl rfl
  | _ :: _, _ :: _, [], _ => .inr rfl
  | x :: a, z :: c, y :: b, h => by
      simp only [charsLt, Bool.or_eq_true, Bool.and_eq_true, decide_eq_true_eq, beq_iff_eq] at h ⊢
      rcases h with h | ⟨rfl, h⟩
      · by_cases hxy : x.toNat < y.toNat
        · exact .inl (.inl hxy)
        · exact .inr (.inl (by omega))
      · by_cases hxy : x = y
        · subst hxy
          exact (charsLt_cotrans b h).imp (fun h => .inr ⟨rfl, h⟩) (fun h => .inr ⟨rfl, h⟩)
        · have hne : x.toNat ≠ y.toNat := fun heq => hxy (Char.toNat_inj.mp heq)
          rcases Nat.lt_or_gt_of_ne hne with hlt | hgt
          · exact .inl (.inl hlt)
          · exact .inr (.inl hgt)

/-- `≤` on texts is transitive. -/
theorem strLt_false_trans {a b c : String} (h : strLt b a = false) (h' : strLt c b = false) :
    strLt c a = false := by
  by_contra hlt
  rw [Bool.not_eq_false] at hlt
  rcases charsLt_cotrans b.toList hlt with hcb | hba
  · exact Bool.false_ne_true (h'.symm.trans hcb)
  · exact Bool.false_ne_true (h.symm.trans hba)

theorem strLt_trans {a b c : String} (h : strLt a b = true) (h' : strLt b c = true) :
    strLt a c = true := by
  rcases charsLt_cotrans c.toList h with hac | hcb
  · exact hac
  · exact absurd ((strLt_asymm h').symm.trans hcb) Bool.false_ne_true

theorem toString_injective {n m : Nat} (h : toString n = toString m) : n = m := by
  have hn : (toString n).toList = Nat.toDigits 10 n := Nat.toList_repr
  have hm : (toString m).toList = Nat.toDigits 10 m := Nat.toList_repr
  rw [h, hm] at hn
  have hdigits := congrArg (fun l => Nat.ofDigitChars 10 l 0) hn
  simp only [Nat.ofDigitChars_ten_toDigits] at hdigits
  exact hdigits.symm

/-- `str::parse::<i64>`: an optional sign and decimal digits, within range. -/
def parseI64 (s : String) : Option Int :=
  let digits (cs : List Char) : Option Nat :=
    if cs ≠ [] ∧ cs.all isAsciiDigit then
      some (cs.foldl (fun n c => 10 * n + (c.toNat - '0'.toNat)) 0)
    else none
  let value : Option Int :=
    match s.toList with
    | '-' :: cs => (digits cs).map fun n => -(n : Int)
    | '+' :: cs => (digits cs).map fun n => (n : Int)
    | cs => (digits cs).map fun n => (n : Int)
  value.filter fun n => decide (-(2 ^ 63) ≤ n) && decide (n < 2 ^ 63)

end Peanut
