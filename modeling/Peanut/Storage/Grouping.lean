import Mathlib.Data.String.Basic
import Peanut.Storage.Listing

/-!
# Grouping by a delimiter

`build_list_entries`: the items below a start, in which those with the delimiter
behind the start are hidden under what stands up to its first occurrence.  Every
item is hidden under one name or shown as itself, and no name is one of both.
-/

namespace Peanut

/-! ### Names in order -/

theorem charsLt_iff_lt : ∀ {as bs : List Char}, charsLt as bs = true ↔ as < bs
  | as, [] => by cases as <;> simp [charsLt]
  | [], b :: bs => by simp [charsLt]
  | a :: as, b :: bs => by
      rw [charsLt, Bool.or_eq_true, Bool.and_eq_true, decide_eq_true_eq, beq_iff_eq,
        List.cons_lt_cons_iff, charsLt_iff_lt]
      exact Iff.rfl

theorem strLt_iff_lt {a b : String} : strLt a b = true ↔ a < b :=
  charsLt_iff_lt.trans String.lt_iff_toList_lt.symm

theorem strLt_eq_false_iff {a b : String} : strLt a b = false ↔ b ≤ a := by
  rw [← Bool.not_eq_true, strLt_iff_lt, not_lt]

/-! ### The first occurrence -/

theorem strFind_eq_some_iff {needle s : String} {index : Nat} :
    strFind needle s = some index ↔
      needle.toList <+: s.toList.drop index ∧
        ∀ j, j < index → ¬ needle.toList <+: s.toList.drop j := by
  rw [strFind, List.findIdx?_eq_some_iff_getElem]
  constructor
  · rintro ⟨hlt, hat, hbefore⟩
    rw [List.getElem_tails, List.isPrefixOf_iff_prefix] at hat
    refine ⟨hat, ?_⟩
    intro j hj hfront
    have hfalse := hbefore j hj
    rw [List.getElem_tails, List.isPrefixOf_iff_prefix.mpr hfront] at hfalse
    exact hfalse rfl
  · rintro ⟨hat, hbefore⟩
    have hlt : index < s.toList.tails.length := by
      rw [List.length_tails]
      by_contra hlong
      -- behind the end there is only the empty text, which stands at the front too
      rw [List.drop_of_length_le (by omega), List.prefix_nil] at hat
      exact hbefore 0 (by omega) (by rw [hat]; exact List.nil_prefix)
    refine ⟨hlt, ?_, ?_⟩
    · rw [List.getElem_tails, List.isPrefixOf_iff_prefix]
      exact hat
    · intro j hj htrue
      rw [List.getElem_tails, List.isPrefixOf_iff_prefix] at htrue
      exact hbefore j hj htrue

theorem strFind_eq_none_iff {needle s : String} :
    strFind needle s = none ↔ ¬ needle.toList <:+: s.toList := by
  rw [strFind, List.findIdx?_eq_none_iff]
  constructor
  · rintro hall ⟨before, after, heq⟩
    have hmem : needle.toList ++ after ∈ s.toList.tails :=
      (List.mem_tails _ _).mpr ⟨before, by rw [← heq, List.append_assoc]⟩
    have hfalse := hall _ hmem
    rw [List.isPrefixOf_iff_prefix.mpr (List.prefix_append _ _)] at hfalse
    cases hfalse
  · intro hnone tail htail
    rw [← Bool.not_eq_true, List.isPrefixOf_iff_prefix]
    intro hfront
    exact hnone (hfront.isInfix.trans ((List.mem_tails _ _).mp htail).isInfix)

/-- The name `q` is what a key says up to the end of the first occurrence of the
    delimiter behind the start. -/
def EndsAtFirst (start delimiter key q : String) : Prop :=
  ∃ before after, key.toList = start.toList ++ (before ++ (delimiter.toList ++ after)) ∧
    q.toList = start.toList ++ (before ++ delimiter.toList) ∧
    ∀ j, j < before.length → ¬ delimiter.toList <+: (before ++ (delimiter.toList ++ after)).drop j

/-- A delimiter that stands behind the start. -/
def Occurs (start delimiter key : String) : Prop :=
  ∃ rest, key.toList = start.toList ++ rest ∧ delimiter.toList <:+: rest

section Starts

variable {start delimiter q : String} {item : StorageListItem} {rest : List Char}

theorem commonStart_of_rest (hkey : item.key.toList = start.toList ++ rest) :
    commonStart start (some delimiter) item =
      (strFind delimiter (String.ofList rest)).map fun index =>
        start ++ String.ofList (rest.take (index + delimiter.length)) := by
  have hrest : item.key.toList.drop start.length = rest := by
    rw [hkey, ← String.length_toList]
    exact List.drop_left
  rw [commonStart, Option.bind_some, hrest]
  simp only [String.toList_ofList]

theorem commonStart_eq_some_iff (hkey : item.key.toList = start.toList ++ rest) :
    commonStart start (some delimiter) item = some q ↔ EndsAtFirst start delimiter item.key q := by
  rw [commonStart_of_rest hkey, Option.map_eq_some_iff]
  constructor
  · rintro ⟨index, hfind, rfl⟩
    rw [strFind_eq_some_iff, String.toList_ofList] at hfind
    obtain ⟨⟨after, hafter⟩, hfirst⟩ := hfind
    have hsplit : rest = rest.take index ++ (delimiter.toList ++ after) := by
      rw [hafter, List.take_append_drop]
    -- a shorter text before the delimiter would end where the text does
    have hlen : (rest.take index).length = index := by
      rw [List.length_take, Nat.min_eq_left]
      by_contra hlong
      rw [List.drop_of_length_le (by omega), List.append_eq_nil_iff] at hafter
      exact hfirst 0 (by omega) (by rw [hafter.1]; exact List.nil_prefix)
    refine ⟨rest.take index, after, by rw [hkey, ← hsplit], ?_, ?_⟩
    · rw [String.toList_append, String.toList_ofList]
      congr 1
      have htake : rest.take (index + delimiter.length) =
          (rest.take index ++ (delimiter.toList ++ after)).take (index + delimiter.length) := by
        rw [← hsplit]
      rw [htake, ← List.append_assoc]
      exact List.take_left' (by rw [List.length_append, hlen, String.length_toList])
    · rw [← hsplit, hlen]
      exact hfirst
  · rintro ⟨before, after, hsplit, hq, hfirst⟩
    obtain rfl := List.append_cancel_left (hkey.symm.trans hsplit)
    refine ⟨before.length, ?_, ?_⟩
    · rw [strFind_eq_some_iff, String.toList_ofList]
      exact ⟨by rw [List.drop_left]; exact List.prefix_append _ _, hfirst⟩
    · apply String.toList_inj.mp
      rw [String.toList_append, String.toList_ofList, hq, ← List.append_assoc]
      congr 1
      exact List.take_left' (by rw [List.length_append, String.length_toList])

theorem commonStart_eq_none_iff (hkey : item.key.toList = start.toList ++ rest) :
    commonStart start (some delimiter) item = none ↔ ¬ Occurs start delimiter item.key := by
  rw [commonStart_of_rest hkey, Option.map_eq_none_iff, strFind_eq_none_iff, String.toList_ofList,
    not_iff_not]
  constructor
  · intro h
    exact ⟨rest, hkey, h⟩
  · rintro ⟨rest', hkey', h⟩
    rwa [← List.append_cancel_left (hkey.symm.trans hkey')] at h

end Starts

/-! ### The entries -/

variable {items : List StorageListItem} {start : String} {delimiter : Option String}

theorem mem_buildListEntries_object {item : StorageListItem} :
    ListEntry.object item ∈ buildListEntries items start delimiter ↔
      item ∈ items ∧ start.toList <+: item.key.toList ∧ commonStart start delimiter item =
        none := by
  simp only [buildListEntries, List.mem_mergeSort, List.mem_append, List.mem_map, List.mem_filter,
    ListEntry.object.injEq, exists_eq_right, reduceCtorEq, and_false, exists_false, or_false,
    List.isPrefixOf_iff_prefix, Option.isNone_iff_eq_none]
  exact and_assoc

theorem mem_buildListEntries_common {q : String} :
    ListEntry.common q ∈ buildListEntries items start delimiter ↔
      ∃ item ∈ items, start.toList <+: item.key.toList ∧
        commonStart start delimiter item = some q := by
  simp only [buildListEntries, List.mem_mergeSort, List.mem_append, List.mem_map, List.mem_filter,
    ListEntry.common.injEq, exists_eq_right, reduceCtorEq, and_false, exists_false, false_or,
    List.mem_dedup, List.mem_filterMap, List.isPrefixOf_iff_prefix, and_assoc]

theorem buildListEntries_sorted (items : List StorageListItem) (start : String)
    (delimiter : Option String) :
    (buildListEntries items start delimiter).Pairwise fun e e' => e.token ≤ e'.token := by
  have htrans : ∀ a b c : ListEntry, (!strLt b.token a.token) = true →
      (!strLt c.token b.token) = true → (!strLt c.token a.token) = true := by
    intro a b c hab hbc
    rw [Bool.not_eq_true'] at hab hbc ⊢
    exact strLt_false_trans hab hbc
  have htotal : ∀ a b : ListEntry, (!strLt b.token a.token || !strLt a.token b.token) = true := by
    intro a b
    rw [Bool.or_eq_true, Bool.not_eq_true', Bool.not_eq_true', strLt_eq_false_iff,
      strLt_eq_false_iff]
    exact le_total _ _
  refine (List.pairwise_mergeSort htrans htotal _).imp fun {e e'} h => ?_
  rw [Bool.not_eq_true', strLt_eq_false_iff] at h
  exact h

theorem commonStart_of_key {name : String} {item item' : StorageListItem}
    (hstart : start.toList <+: item.key.toList) (hstart' : start.toList <+: item'.key.toList)
    (h : commonStart start delimiter item = some name) (hname : item'.key = name) :
    commonStart start delimiter item' ≠ none := by
  cases delimiter with
  | none => cases h
  | some d =>
    obtain ⟨rest, hrest⟩ := hstart
    obtain ⟨rest', hrest'⟩ := hstart'
    rw [Ne, commonStart_eq_none_iff hrest'.symm, not_not]
    -- behind the start, the name ends with the delimiter
    obtain ⟨before, after, -, hq, -⟩ := (commonStart_eq_some_iff hrest.symm).mp h
    exact ⟨before ++ d.toList, by rw [hname, hq], List.infix_append' before d.toList [] |>.trans
      (by rw [List.append_nil])⟩

theorem token_ne_of_kinds {item : StorageListItem} {name : String}
    (hitem : ListEntry.object item ∈ buildListEntries items start delimiter)
    (hname : ListEntry.common name ∈ buildListEntries items start delimiter) : item.key ≠ name := by
  intro hsame
  obtain ⟨-, hstart, hshown⟩ := mem_buildListEntries_object.mp hitem
  obtain ⟨item', -, hstart', hcommon⟩ := mem_buildListEntries_common.mp hname
  exact commonStart_of_key hstart' hstart hcommon hsame hshown

theorem nodup_tokens (hkeys : (items.map StorageListItem.key).Nodup) :
    ((buildListEntries items start delimiter).map ListEntry.token).Nodup := by
  have hperm := (List.mergeSort_perm
    ((((items.filter fun item => start.toList.isPrefixOf item.key.toList).filter fun item =>
      (commonStart start delimiter item).isNone).map ListEntry.object) ++
      (((items.filter fun item => start.toList.isPrefixOf item.key.toList).filterMap
        (commonStart start delimiter)).dedup.map ListEntry.common))
    fun left right => !strLt right.token left.token).map ListEntry.token
  have happart := @token_ne_of_kinds items start delimiter
  rw [buildListEntries] at happart ⊢
  simp only [List.mem_mergeSort, List.mem_append] at happart
  rw [hperm.nodup_iff, List.map_append, List.map_map, List.map_map, List.nodup_append]
  refine ⟨?_, ?_, ?_⟩
  · exact hkeys.sublist ((List.filter_sublist.trans List.filter_sublist).map _)
  · have hself : ListEntry.token ∘ ListEntry.common = id := rfl
    rw [hself, List.map_id]
    exact List.nodup_dedup _
  · intro key hkey name hname
    obtain ⟨item, hitem, rfl⟩ := List.mem_map.mp hkey
    obtain ⟨q, hq, rfl⟩ := List.mem_map.mp hname
    exact happart (.inl (List.mem_map.mpr ⟨item, hitem, rfl⟩))
      (.inr (List.mem_map.mpr ⟨q, hq, rfl⟩))

theorem buildListEntries_increasing (hkeys : (items.map StorageListItem.key).Nodup) :
    (buildListEntries items start delimiter).Pairwise fun e e' => e.token < e'.token := by
  have hne := List.pairwise_map.mp (@nodup_tokens items start delimiter hkeys)
  exact (buildListEntries_sorted items start delimiter).imp₂ (fun _ _ hle hne =>
    lt_of_le_of_ne hle hne) hne

/-! ### What a grouping is -/

/-- The entry stands for the item: it is the item, or what hides it. -/
def ListEntry.Represents (start : String) (delimiter : Option String) (item : StorageListItem) :
    ListEntry → Prop
  | .object shown => shown = item
  | .common q => ∃ d, delimiter = some d ∧ EndsAtFirst start d item.key q

/-- The entries are the items below a start, grouped by a delimiter. -/
structure Grouped (items : List StorageListItem) (start : String) (delimiter : Option String)
    (entries : List ListEntry) : Prop where
  increasing : entries.Pairwise fun e e' => strLt e.token e'.token = true
  object_iff : ∀ item, ListEntry.object item ∈ entries ↔
    item ∈ items ∧ start.toList <+: item.key.toList ∧
      ∀ d, delimiter = some d → ¬ Occurs start d item.key
  common_iff : ∀ q, ListEntry.common q ∈ entries ↔
    ∃ item ∈ items, ∃ d, delimiter = some d ∧ EndsAtFirst start d item.key q
  represented : ∀ item ∈ items, start.toList <+: item.key.toList →
    ∃! entry, entry ∈ entries ∧ entry.Represents start delimiter item

theorem EndsAtFirst.isPrefix {d key q : String} (h : EndsAtFirst start d key q) :
    start.toList <+: key.toList := by
  obtain ⟨before, after, hkey, -, -⟩ := h
  exact ⟨_, hkey.symm⟩

theorem EndsAtFirst.occurs {d key q : String} (h : EndsAtFirst start d key q) :
    Occurs start d key := by
  obtain ⟨before, after, hkey, -, -⟩ := h
  exact ⟨_, hkey, before, after, by rw [List.append_assoc]⟩

theorem commonStart_eq_none {item : StorageListItem} (hstart : start.toList <+: item.key.toList) :
    commonStart start delimiter item = none ↔
      ∀ d, delimiter = some d → ¬ Occurs start d item.key := by
  obtain ⟨rest, hrest⟩ := hstart
  cases delimiter with
  | none => simp [commonStart]
  | some d =>
    rw [commonStart_eq_none_iff hrest.symm]
    constructor
    · rintro h _ ⟨rfl⟩
      exact h
    · exact fun h => h d rfl

theorem commonStart_eq_some {item : StorageListItem} {q : String}
    (hstart : start.toList <+: item.key.toList) :
    commonStart start delimiter item = some q ↔
      ∃ d, delimiter = some d ∧ EndsAtFirst start d item.key q := by
  obtain ⟨rest, hrest⟩ := hstart
  cases delimiter with
  | none => simp [commonStart]
  | some d =>
    rw [commonStart_eq_some_iff hrest.symm]
    constructor
    · exact fun h => ⟨d, rfl, h⟩
    · rintro ⟨_, ⟨rfl⟩, h⟩
      exact h

theorem represented_once {item : StorageListItem} (hitem : item ∈ items)
    (hstart : start.toList <+: item.key.toList) :
    ∃! entry, entry ∈ buildListEntries items start delimiter ∧
      entry.Represents start delimiter item := by
  cases hcommon : commonStart start delimiter item with
  | none =>
    refine ⟨.object item, ⟨mem_buildListEntries_object.mpr ⟨hitem, hstart, hcommon⟩, rfl⟩, ?_⟩
    rintro (shown | q) ⟨-, hrep⟩
    · exact congrArg ListEntry.object hrep
    · rw [ListEntry.Represents, ← commonStart_eq_some hstart, hcommon] at hrep
      cases hrep
  | some q =>
    have hends := (commonStart_eq_some hstart).mp hcommon
    refine ⟨.common q, ⟨mem_buildListEntries_common.mpr ⟨item, hitem, hstart, hcommon⟩, hends⟩, ?_⟩
    rintro (shown | q') ⟨hmem, hrep⟩
    · obtain ⟨-, -, hnone⟩ := mem_buildListEntries_object.mp hmem
      rw [show shown = item from hrep, hcommon] at hnone
      cases hnone
    · rw [ListEntry.Represents, ← commonStart_eq_some hstart, hcommon] at hrep
      rw [Option.some.inj hrep]

/-- **Grouping by a delimiter is exact.** -/
theorem buildListEntries_grouped (items : List StorageListItem) (start : String)
    (delimiter : Option String) (hkeys : (items.map StorageListItem.key).Nodup) :
    Grouped items start delimiter (buildListEntries items start delimiter) where
  increasing := (buildListEntries_increasing hkeys).imp fun h => strLt_iff_lt.mpr h
  object_iff item := by
    rw [mem_buildListEntries_object]
    refine and_congr_right fun _ => and_congr_right fun hstart => commonStart_eq_none hstart
  common_iff q := by
    rw [mem_buildListEntries_common]
    refine exists_congr fun item => and_congr_right fun _ => ?_
    constructor
    · rintro ⟨hstart, hcommon⟩
      exact (commonStart_eq_some hstart).mp hcommon
    · rintro ⟨d, hd, hends⟩
      exact ⟨hends.isPrefix, (commonStart_eq_some hends.isPrefix).mpr ⟨d, hd, hends⟩⟩
  represented _ hitem hstart := represented_once hitem hstart

def itemOf (key : String) : StorageListItem :=
  { key := key, size := 0, etag := "", lastModified := "", contentType := "text/plain" }

/-- Two photos are hidden under their folder. -/
theorem photos_grouped :
    Grouped (["photos/1.jpg", "photos/2.jpg", "root.txt"].map itemOf) "" (some "/")
      (buildListEntries (["photos/1.jpg", "photos/2.jpg", "root.txt"].map itemOf) "" (some "/")) :=
  buildListEntries_grouped _ _ _ (by decide)

end Peanut
