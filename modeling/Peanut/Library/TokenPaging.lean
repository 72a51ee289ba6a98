import Mathlib.Order.Lattice
import Peanut.Library.Paging

/-!
# Pages with continuation tokens

Entries are sorted by a key and listed `n` at a time.  A page that is not the last
answers the key of its last entry, and the next request brings the key back; it is
read back in some way and stands for a place in the order, where the next page
starts.  The pages put together are the entries, and the requests come to an end,
exactly when each key that ends a page is read back to the place behind it.
-/

namespace TokenPaging

universe u v

variable {α : Type u} {κ : Type v}

/-- The pages from `rest` on.  `restOf` is what a request lists that brings back
    the token of an entry; it may be refused. -/
def pages (restOf : α → Option (List α)) (n : Nat) : (fuel : Nat) → List α → Option (List (List α))
  | 0, _ => none
  | fuel + 1, rest =>
      if n < rest.length then
        ((rest.take n).getLast?.bind restOf).bind fun rest' =>
          (pages restOf n fuel rest').map (rest.take n :: ·)
      else some [rest]

section Pages

variable {restOf : α → Option (List α)} {n fuel : Nat} {rest rest' c b : List α} {x y : α}
  {ps : List (List α)}

theorem pages_last (h : rest.length ≤ n) : pages restOf n (fuel + 1) rest = some [rest] := by
  rw [pages, if_neg (Nat.not_lt.mpr h)]

/-- A page that ends with `x`, before `y`. -/
theorem pages_more (hc : c.length + 1 = n) :
    pages restOf n (fuel + 1) (c ++ x :: y :: b) =
      (restOf x).bind fun rest' => (pages restOf n fuel rest').map ((c ++ [x]) :: ·) := by
  have hlt : n < (c ++ x :: y :: b).length := by
    rw [List.length_append, List.length_cons, List.length_cons]
    omega
  have hpage : (c ++ x :: y :: b).take n = c ++ [x] := by
    have hsplit : c ++ x :: y :: b = (c ++ [x]) ++ y :: b := by
      rw [List.append_assoc]
      rfl
    rw [hsplit]
    exact List.take_left' (by rw [List.length_append, List.length_singleton, hc])
  rw [pages, if_pos hlt, hpage, List.getLast?_append, List.getLast?_singleton]
  rfl

/-- The pages start with what they were asked for. -/
theorem take_isPrefix_flatten (h : pages restOf n fuel rest = some ps) :
    rest.take n <+: ps.flatten := by
  cases fuel with
  | zero => cases h
  | succ fuel =>
    rw [pages] at h
    split at h
    · obtain ⟨rest', -, h⟩ := Option.bind_eq_some_iff.mp h
      obtain ⟨ps', -, rfl⟩ := Option.map_eq_some_iff.mp h
      exact List.prefix_append _ _
    · cases h
      rw [List.flatten_singleton]
      exact List.take_prefix n rest

theorem flatten_of_length_le (hrest : rest.length ≤ n) (h : pages restOf n fuel rest = some ps) :
    ps.flatten = rest := by
  cases fuel with
  | zero => cases h
  | succ fuel =>
    rw [pages_last hrest] at h
    cases h
    exact List.flatten_singleton

/-- A page whose token leads back to it is listed for ever. -/
theorem pages_eq_none_of_loop (hlong : n < rest.length)
    (hloop : (rest.take n).getLast?.bind restOf = some rest) : pages restOf n fuel rest = none := by
  induction fuel with
  | zero => rfl
  | succ fuel ih => rw [pages, if_pos hlong, hloop, Option.bind_some, ih, Option.map_none]

end Pages

/-! ### Tokens that stand for places -/

variable [LinearOrder κ]

/-- A token that is read back stands for the keys behind a place. -/
def Cuts (resume : κ → Option (κ → Bool)) : Prop :=
  ∀ (k : κ) (cut : κ → Bool), resume k = some cut →
    ∀ x y : κ, x ≤ y → cut x = true → cut y = true

variable (key : α → κ) (resume : κ → Option (κ → Bool)) (entries : List α)

/-- The entries behind the place that the key of `a` is read back to. -/
def restOf (a : α) : Option (List α) :=
  (resume (key a)).map fun cut => entries.filter fun e => cut (key e)

/-- Where a page of `n` entries ends between `x` and `y`, the key of `x` is read
    back to a place between them. -/
def ResumesAtEnds (n : Nat) : Prop :=
  ∀ a x y b, entries = a ++ x :: y :: b → n ∣ a.length + 1 →
    ∃ cut, resume (key x) = some cut ∧ cut (key x) = false ∧ cut (key y) = true

variable {key resume entries} {n fuel : Nat} {rest a b : List α} {x y : α}

omit [LinearOrder κ] in
/-- A page of the entries keeps their order. -/
theorem sublist_of_mem_pages {ps : List (List α)}
    (h : pages (restOf key resume entries) n fuel rest = some ps) (hrest : rest.Sublist entries) :
    ∀ page ∈ ps, page.Sublist entries := by
  induction fuel generalizing rest ps with
  | zero => cases h
  | succ fuel ih =>
    intro page hpage
    rw [pages] at h
    split at h
    · obtain ⟨rest', hrest', h⟩ := Option.bind_eq_some_iff.mp h
      obtain ⟨ps', hps', rfl⟩ := Option.map_eq_some_iff.mp h
      obtain ⟨e, -, hrest'⟩ := Option.bind_eq_some_iff.mp hrest'
      obtain ⟨cut, -, rfl⟩ := Option.map_eq_some_iff.mp hrest'
      rcases List.mem_cons.mp hpage with rfl | hpage
      · exact (List.take_sublist n rest).trans hrest
      · exact ih hps' List.filter_sublist page hpage
    · cases h
      rw [List.mem_singleton.mp hpage]
      exact hrest

/-- A place between two neighbours leaves the entries from the second on. -/
theorem filter_cut (hcuts : Cuts resume)
    (hsorted : (a ++ x :: y :: b).Pairwise fun e e' => key e ≤ key e') {cut : κ → Bool} {k : κ}
    (hcut : resume k = some cut) (hx : cut (key x) = false) (hy : cut (key y) = true) :
    (a ++ x :: y :: b).filter (fun e => cut (key e)) = y :: b := by
  obtain ⟨-, hxyb, hab⟩ := List.pairwise_append.mp hsorted
  obtain ⟨-, hyb⟩ := List.pairwise_cons.mp hxyb
  have ha : a.filter (fun e => cut (key e)) = [] := List.filter_eq_nil_iff.mpr fun e he htrue =>
    Bool.false_ne_true (hx.symm.trans (hcuts k cut hcut _ _ (hab e he x List.mem_cons_self) htrue))
  have hb : (y :: b).filter (fun e => cut (key e)) = y :: b :=
    List.filter_eq_self.mpr fun e he => by
      rcases List.mem_cons.mp he with rfl | he
      · exact hy
      · exact hcuts _ cut hcut _ _ (List.rel_of_pairwise_cons hyb he) hy
  rw [List.filter_append, ha, List.nil_append,
    List.filter_cons_of_neg (by rw [hx]; exact Bool.false_ne_true), hb]

/-- When every end of a page is read back right, the pages are the rest. -/
theorem pages_of_resumes (hcuts : Cuts resume)
    (hsorted : entries.Pairwise fun e e' => key e ≤ key e') (hn : 0 < n)
    (hends : ResumesAtEnds key resume entries n) (hentries : entries = a ++ rest)
    (ha : n ∣ a.length) (hfuel : rest.length < fuel) :
    ∃ ps, pages (restOf key resume entries) n fuel rest = some ps ∧ ps.flatten = rest := by
  induction fuel generalizing a rest with
  | zero => exact absurd hfuel (Nat.not_lt_zero _)
  | succ fuel ih =>
    rcases Nat.lt_or_ge n rest.length with hlong | hshort
    · obtain ⟨c, x, y, b, rfl, hc⟩ := Paging.exists_neighbours (s := rest) (i := n - 1) (by omega)
      have hc' : c.length + 1 = n := by omega
      have hsplit : entries = (a ++ c) ++ x :: y :: b :=
        hentries.trans (List.append_assoc a c _).symm
      have hdvd : n ∣ (a ++ c).length + 1 := by
        rw [List.length_append, Nat.add_assoc, hc']
        exact Nat.dvd_add ha (Nat.dvd_refl n)
      obtain ⟨cut, hcut, hx, hy⟩ := hends (a ++ c) x y b hsplit hdvd
      have hrest : restOf key resume entries x = some (y :: b) := by
        have hfilter := filter_cut hcuts (hsplit ▸ hsorted) hcut hx hy
        rw [← hsplit] at hfilter
        rw [restOf, hcut, Option.map_some, hfilter]
      rw [List.length_append, List.length_cons] at hfuel
      have hnext : entries = (a ++ c ++ [x]) ++ y :: b := by
        rw [hsplit]
        simp only [List.append_assoc, List.cons_append, List.nil_append]
      obtain ⟨ps, hps, hflat⟩ := ih hnext
        (by rw [List.length_append, List.length_singleton]; exact hdvd) (by omega)
      refine ⟨(c ++ [x]) :: ps, ?_, ?_⟩
      · rw [pages_more hc', hrest, Option.bind_some, hps]
        rfl
      · rw [List.flatten_cons, hflat, List.append_assoc]
        rfl
    · exact ⟨[rest], pages_last hshort, List.flatten_singleton⟩

/-! ### Pages that are the entries -/

/-- A sorted list that repeats itself after `z` entries has one key. -/
theorem key_eq_of_shift (hrest : rest.Pairwise fun e e' => key e ≤ key e') {z : Nat}
    (hz : 0 < z) (hn : 0 < n) (hlen : n + z ≤ rest.length)
    (hshift : ∀ i, i < n → rest[i + z]? = rest[i]?) {i : Nat} (hi : i < n + z)
    (hi' : i < rest.length)
    (h0 : 0 < rest.length) : key rest[i] = key rest[0] := by
  have hmono : ∀ (i j : Nat) (hi : i < rest.length) (hj : j < rest.length), i ≤ j →
      key rest[i] ≤ key rest[j] := by
    intro i j hi hj hij
    rcases Nat.lt_or_eq_of_le hij with hlt | rfl
    · exact List.pairwise_iff_getElem.mp hrest i j hi hj hlt
    · exact le_refl _
  induction i using Nat.strongRecOn with
  | _ i ih =>
    rcases Nat.lt_or_ge i z with hlt | hge
    · have hzlen : z < rest.length := by omega
      have hback : rest[z] = rest[0] := by
        have := hshift 0 hn
        rw [Nat.zero_add, List.getElem?_eq_getElem hzlen, List.getElem?_eq_getElem h0] at this
        exact Option.some.inj this
      have hup := hmono i z hi' hzlen (Nat.le_of_lt hlt)
      rw [hback] at hup
      exact le_antisymm hup (hmono 0 i h0 hi' (Nat.zero_le i))
    · have hlower : i - z < rest.length := by omega
      have hback : rest[i] = rest[i - z] := by
        have := hshift (i - z) (by omega)
        rw [Nat.sub_add_cancel hge, List.getElem?_eq_getElem hi',
          List.getElem?_eq_getElem hlower] at this
        exact Option.some.inj this
      rw [hback]
      exact ih (i - z) (by omega) (by omega) (by omega)

/-- A place that a token is read back to, when the pages from there are right: it is
    behind the page. -/
theorem cut_of_flatten (hcuts : Cuts resume) {c : List α}
    (hsorted : (c ++ x :: y :: b).Pairwise fun e e' => key e ≤ key e') (hn : 0 < n)
    {cut : κ → Bool} (hcut : resume (key x) = some cut) {ps : List (List α)}
    (hentries : entries = c ++ x :: y :: b)
    (hps : pages (restOf key resume entries) n fuel (entries.filter fun e => cut (key e)) = some ps)
    (hflat : ps.flatten = y :: b) : cut (key x) = false ∧ cut (key y) = true := by
  obtain ⟨hc, hxyb, hcx⟩ := List.pairwise_append.mp hsorted
  obtain ⟨hxy, hyb⟩ := List.pairwise_cons.mp hxyb
  -- the first entry of what is listed is `y`
  have hy : cut (key y) = true := by
    have hprefix := take_isPrefix_flatten hps
    cases hrest : entries.filter fun e => cut (key e) with
    | nil =>
      rw [hrest] at hps
      have hnil := flatten_of_length_le (Nat.zero_le n) hps
      rw [hflat] at hnil
      cases hnil
    | cons f rest =>
      have hf : cut (key f) = true :=
        (List.mem_filter.mp (hrest ▸ List.mem_cons_self : f ∈ entries.filter _)).2
      obtain ⟨m, rfl⟩ := Nat.exists_eq_succ_of_ne_zero (Nat.pos_iff_ne_zero.mp hn)
      rw [hrest, hflat, List.take_succ_cons] at hprefix
      rw [← (List.cons_prefix_cons.mp hprefix).1]
      exact hf
  refine ⟨?_, hy⟩
  by_contra hx
  rw [Bool.not_eq_false] at hx
  -- the page and perhaps more before it would be listed again
  have hb : (y :: b).filter (fun e => cut (key e)) = y :: b :=
    List.filter_eq_self.mpr fun e he => by
      rcases List.mem_cons.mp he with rfl | he
      · exact hy
      · exact hcuts _ cut hcut _ _ (List.rel_of_pairwise_cons hyb he) hy
  obtain ⟨z, hrest⟩ : ∃ z, entries.filter (fun e => cut (key e)) = (z ++ [x]) ++ y :: b := by
    refine ⟨c.filter fun e => cut (key e), ?_⟩
    rw [hentries, List.filter_append, List.filter_cons_of_pos (p := fun e => cut (key e)) hx, hb,
      List.append_assoc]
    rfl
  rw [hrest] at hps
  have hlength : ((z ++ [x]) ++ y :: b).length = (z ++ [x]).length + (y :: b).length :=
    List.length_append
  have hz : (z ++ [x]).length = z.length + 1 := by
    rw [List.length_append, List.length_singleton]
  have hprefix := take_isPrefix_flatten hps
  rw [hflat] at hprefix
  have hlong : n < ((z ++ [x]) ++ y :: b).length := by
    by_contra hshort
    have hall := congrArg List.length (flatten_of_length_le (Nat.not_lt.mp hshort) hps)
    rw [hflat] at hall
    omega
  have htake : (((z ++ [x]) ++ y :: b).take n).length = n :=
    List.length_take_of_le (Nat.le_of_lt hlong)
  have hroom : n ≤ (y :: b).length := by
    rw [← htake]
    exact hprefix.length_le
  have hshift : ∀ i, i < n →
      ((z ++ [x]) ++ y :: b)[i + (z ++ [x]).length]? = ((z ++ [x]) ++ y :: b)[i]? := by
    intro i hi
    have hsame : (((z ++ [x]) ++ y :: b).take n)[i]? = (y :: b)[i]? := by
      have hi' : i < (((z ++ [x]) ++ y :: b).take n).length := by rw [htake]; exact hi
      rw [List.prefix_iff_getElem?.mp hprefix i hi', List.getElem?_eq_getElem hi']
    rw [List.getElem?_append_right (Nat.le_add_left _ _), Nat.add_sub_cancel, ← hsame,
      List.getElem?_take_of_lt hi]
  have hsorted' : ((z ++ [x]) ++ y :: b).Pairwise fun e e' => key e ≤ key e' := by
    rw [← hrest, hentries]
    exact hsorted.sublist List.filter_sublist
  have hfirst : 0 < ((z ++ [x]) ++ y :: b).length := by omega
  have hkey : ∀ (i : Nat) (hi : i < ((z ++ [x]) ++ y :: b).length), i < n + (z ++ [x]).length →
      key ((z ++ [x]) ++ y :: b)[i] = key ((z ++ [x]) ++ y :: b)[0] := fun i hi hlt =>
    key_eq_of_shift hsorted' (by omega) hn (by omega) hshift hlt hi hfirst
  -- so the last entry of what is listed has the key of `x`
  have hlast : (((z ++ [x]) ++ y :: b).take n).getLast?.bind (restOf key resume entries) =
      some ((z ++ [x]) ++ y :: b) := by
    have hend : n - 1 < ((z ++ [x]) ++ y :: b).length := by omega
    have hplace : z.length < ((z ++ [x]) ++ y :: b).length := by omega
    have hget : (((z ++ [x]) ++ y :: b).take n).getLast? =
        some ((z ++ [x]) ++ y :: b)[n - 1] := by
      rw [List.getLast?_eq_getElem?, htake, List.getElem?_take_of_lt (by omega),
        List.getElem?_eq_getElem]
    have hx' : ((z ++ [x]) ++ y :: b)[z.length] = x := by
      simp
    have hsame := (hkey (n - 1) hend (by omega)).trans (hkey z.length hplace (by omega)).symm
    rw [hx'] at hsame
    rw [hget, Option.bind_some, restOf, hsame, hcut, Option.map_some, hrest]
  rw [pages_eq_none_of_loop hlong hlast] at hps
  cases hps

/-- The end of a page behind the first `a` entries is at least a page behind them. -/
theorem le_of_dvd_succ {k l : Nat} (hk : n ∣ k) (hl : n ∣ l + 1) (hle : k ≤ l) :
    k + n ≤ l + 1 := by
  have hdvd := Nat.le_of_dvd (by omega) (Nat.dvd_sub hl hk)
  omega

/-- When the pages are the rest, every end of a page is read back right. -/
theorem resumes_of_pages (hcuts : Cuts resume)
    (hsorted : entries.Pairwise fun e e' => key e ≤ key e') (hn : 0 < n)
    (hentries : entries = a ++ rest) (ha : n ∣ a.length) {ps : List (List α)}
    (hps : pages (restOf key resume entries) n fuel rest = some ps) (hflat : ps.flatten = rest) :
    ∀ c x y b, entries = c ++ x :: y :: b → a.length ≤ c.length → n ∣ c.length + 1 →
      ∃ cut, resume (key x) = some cut ∧ cut (key x) = false ∧ cut (key y) = true := by
  induction fuel generalizing a rest ps with
  | zero => cases hps
  | succ fuel ih =>
    intro c x y b hsplit hac hdvd
    have hlong : n < rest.length := by
      have hlen := congrArg List.length (hentries.symm.trans hsplit)
      simp only [List.length_append, List.length_cons] at hlen
      have hle := le_of_dvd_succ ha hdvd hac
      omega
    obtain ⟨d, x', y', b', rfl, hd⟩ := Paging.exists_neighbours (s := rest) (i := n - 1) (by omega)
    have hd' : d.length + 1 = n := by omega
    have hsplit' : entries = (a ++ d) ++ x' :: y' :: b' :=
      hentries.trans (List.append_assoc a d _).symm
    rw [pages_more hd'] at hps
    obtain ⟨rest', hrest', hps⟩ := Option.bind_eq_some_iff.mp hps
    obtain ⟨ps', hps', rfl⟩ := Option.map_eq_some_iff.mp hps
    obtain ⟨cut, hcut, rfl⟩ := Option.map_eq_some_iff.mp hrest'
    have hflat' : ps'.flatten = y' :: b' := by
      rw [List.flatten_cons, List.append_assoc] at hflat
      exact (List.cons.inj (List.append_cancel_left hflat)).2
    have hbetween := cut_of_flatten hcuts (hsplit' ▸ hsorted) hn hcut hsplit' hps' hflat'
    rcases Nat.lt_or_ge c.length (a ++ d ++ [x']).length with hhere | hlater
    · -- this is the end of the first page
      have hlen : (a ++ d).length = c.length := by
        rw [List.length_append, List.length_append, List.length_singleton] at hhere
        have hle := le_of_dvd_succ ha hdvd hac
        rw [List.length_append]
        omega
      obtain ⟨rfl, heq⟩ := List.append_inj (hsplit'.symm.trans hsplit) hlen
      cases heq
      exact ⟨cut, hcut, hbetween⟩
    · have hfilter := filter_cut hcuts (hsplit' ▸ hsorted) hcut hbetween.1 hbetween.2
      rw [← hsplit'] at hfilter
      rw [hfilter] at hps'
      refine ih (a := a ++ d ++ [x']) ?_ ?_ hps' hflat' c x y b hsplit hlater hdvd
      · rw [hsplit']
        simp only [List.append_assoc, List.cons_append, List.nil_append]
      · rw [List.length_append, List.length_append, List.length_singleton, Nat.add_assoc, hd']
        exact Nat.dvd_add ha (Nat.dvd_refl n)

/-- **The pages are the entries exactly when** every end of a page is read back to
    the place behind it. -/
theorem pages_flatten_iff (hcuts : Cuts resume)
    (hsorted : entries.Pairwise fun e e' => key e ≤ key e') (hn : 0 < n) :
    (∃ fuel ps, pages (restOf key resume entries) n fuel entries = some ps ∧
      ps.flatten = entries) ↔ ResumesAtEnds key resume entries n := by
  constructor
  · rintro ⟨fuel, ps, hps, hflat⟩ c x y b hentries hdvd
    exact resumes_of_pages hcuts hsorted hn (a := []) rfl (Nat.dvd_zero n) hps hflat c x y b
      hentries (Nat.zero_le _) hdvd
  · intro hends
    exact ⟨_, pages_of_resumes hcuts hsorted hn hends (a := []) rfl (Nat.dvd_zero n)
      (Nat.lt_succ_self _)⟩

end TokenPaging
