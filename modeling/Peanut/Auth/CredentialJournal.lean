import Peanut.Auth.CredentialCalls
import Peanut.Library.TableChanges

/-!
# Credentials are as the journal says

Each statement of a request changes the tables of the credentials in one of a few ways
(`CredentialStep`), and each of these keeps the tables as the journal says: a row that is
not revoked is one that stands in the journal, with the hash of the text handed out last.
-/

namespace Peanut

open Relational Interleaving Journal

/-! ### App keys -/

/-- The row is what was issued, but for what a rotation, a revocation and a use write. -/
def AppKey.IssuedAs (r k : AppKey) : Prop :=
  r = { k with
    keyPrefix := r.keyPrefix, keyHash := r.keyHash, lastUsedAt := r.lastUsedAt
    revokedAt := r.revokedAt }

abbrev AppKeyTable := KeyedTable AppKey (·.id)

abbrev ServiceTokenTable := KeyedTable ServiceToken (·.id)

/-- What a statement does to the app keys. -/
inductive AppKeyStep (pf : Platform) (t : AppKeyTable) (ns : List CredentialNotice) :
    AppKeyTable → List CredentialNotice → Prop where
  | kept {more : List CredentialNotice} (hmore : ∀ n ∈ more, n.appKeyId = none) :
      AppKeyStep pf t ns t (ns ++ more)
  | used (id now : String) :
      AppKeyStep pf t ns
        (t.updateWhere (fun k => k.id == id) (AppKey.used now) (AppKey.id_used now)) ns
  | issued {t' : AppKeyTable} {k : AppKey} {key : String} (hinsert : t.insert? k = some t')
      (hlive : k.revokedAt = none) (hhash : k.keyHash = hashOpaqueToken pf key)
      (hkeyPrefix : k.keyPrefix = keyTextPrefix key) (hfree : ∀ r ∈ t, r.keyHash ≠ k.keyHash) :
      AppKeyStep pf t ns t' (ns ++ [.appKeyIssued k key])
  | rotated {r : AppKey} {appId keyId : String} (key : String) (hr : r ∈ t)
      (hactive : r.isActive appId keyId = true)
      (hfree : ∀ r ∈ t, r.isActive appId keyId = false → r.keyHash ≠ hashOpaqueToken pf key) :
      AppKeyStep pf t ns
        (t.updateWhere (AppKey.isActive appId keyId) (AppKey.rotated pf key)
          (AppKey.id_rotated pf key)) (ns ++ [.appKeyRotated keyId key])
  | revoked {r : AppKey} {appId keyId : String} (now : String) (hr : r ∈ t)
      (hactive : r.isActive appId keyId = true) :
      AppKeyStep pf t ns
        (t.updateWhere (AppKey.isActive appId keyId) (AppKey.revoked now)
          (AppKey.id_revoked now)) (ns ++ [.appKeyRevoked keyId])

/-- **The app keys are as the journal says.** -/
structure AppKeysAsTold (pf : Platform) (t : AppKeyTable) (ns : List CredentialNotice) : Prop where
  issued : ∀ r ∈ t, ∃ k key, .appKeyIssued k key ∈ ns ∧ r.IssuedAs k
  kept : ∀ k key, .appKeyIssued k key ∈ ns → ∃ r ∈ t, r.IssuedAs k
  standing : ∀ n id key, Standing CredentialNotice.ends ns n → n.handsOut = some (id, key) →
    ∃ r ∈ t, r.id = id ∧ r.revokedAt = none ∧ r.keyHash = hashOpaqueToken pf key ∧
      r.keyPrefix = keyTextPrefix key
  live : ∀ r ∈ t, r.revokedAt = none →
    ∃ n key, Standing CredentialNotice.ends ns n ∧ n.handsOut = some (r.id, key)
  revoked : ∀ id, .appKeyRevoked id ∈ ns ↔ ∃ r ∈ t, r.id = id ∧ r.revokedAt ≠ none
  distinct : t.Unique (·.keyHash)

theorem AppKeysAsTold.empty (pf : Platform) : AppKeysAsTold pf .empty [] where
  issued r hr := by simp [KeyedTable.empty, KeyedTable.mem_def] at hr
  kept k key h := by simp at h
  standing n id key h := absurd h (not_standing_nil _ n)
  live r hr := by simp [KeyedTable.empty, KeyedTable.mem_def] at hr
  revoked id := by simp [KeyedTable.empty, KeyedTable.mem_def]
  distinct := KeyedTable.unique_empty _

theorem CredentialNotice.appKeyId_of_handsOut {n : CredentialNotice} {id key : String}
    (h : n.handsOut = some (id, key)) : n.appKeyId = some id := by
  cases n <;> simp_all [handsOut, appKeyId]

theorem CredentialNotice.not_ends {m n : CredentialNotice} {id : String} (hm : m.appKeyId = none)
    (hn : n.appKeyId = some id) : ¬ m.ends n := by
  cases m <;> cases n <;> simp_all [ends, appKeyId]

theorem AppKey.IssuedAs.id_eq {r k : AppKey} (h : r.IssuedAs k) : r.id = k.id := congrArg (·.id) h

theorem AppKey.id_eq_of_isActive {r : AppKey} {appId keyId : String}
    (h : r.isActive appId keyId = true) : r.id = keyId := by
  simp only [AppKey.isActive, Bool.and_eq_true, beq_iff_eq] at h
  exact h.1.2

theorem AppKey.revokedAt_of_isActive {r : AppKey} {appId keyId : String}
    (h : r.isActive appId keyId = true) : r.revokedAt = none := by
  simp only [AppKey.isActive, Bool.and_eq_true, Option.isNone_iff_eq_none] at h
  exact h.2

theorem AppKey.eq_of_isActive {t : AppKeyTable} {r r' : AppKey} {appId keyId : String}
    (hr : r ∈ t) (hactive : r.isActive appId keyId = true) (hr' : r' ∈ t) (hid : r'.id = keyId) :
    r' = r :=
  t.eq_of_key_eq hr' hr (hid.trans (AppKey.id_eq_of_isActive hactive).symm)

section AppKeys

variable {pf : Platform} {t t' : AppKeyTable} {ns ns' : List CredentialNotice}

theorem AppKeysAsTold.concat (h : AppKeysAsTold pf t ns) {m : CredentialNotice}
    (hm : m.appKeyId = none) : AppKeysAsTold pf t (ns ++ [m]) where
  issued r hr := by
    obtain ⟨k, key, hk, hissued⟩ := h.issued r hr
    exact ⟨k, key, List.mem_append_left _ hk, hissued⟩
  kept k key hk := by
    rcases List.mem_append.mp hk with hk | hk
    · exact h.kept k key hk
    · rw [← List.mem_singleton.mp hk] at hm
      cases hm
  standing n id key hn hhands := by
    rcases standing_concat.mp hn with rfl | ⟨hn, -⟩
    · rw [CredentialNotice.appKeyId_of_handsOut hhands] at hm
      cases hm
    · exact h.standing n id key hn hhands
  live r hr hlive := by
    obtain ⟨n, key, hn, hhands⟩ := h.live r hr hlive
    have hid := CredentialNotice.appKeyId_of_handsOut hhands
    exact ⟨n, key, hn.concat (CredentialNotice.not_ends hm hid), hhands⟩
  revoked id := by
    rw [← h.revoked id, List.mem_append, or_iff_left]
    intro hrevoked
    rw [← List.mem_singleton.mp hrevoked] at hm
    cases hm
  distinct := h.distinct

theorem AppKeysAsTold.append (h : AppKeysAsTold pf t ns) {more : List CredentialNotice}
    (hmore : ∀ n ∈ more, n.appKeyId = none) : AppKeysAsTold pf t (ns ++ more) := by
  induction more generalizing ns with
  | nil => rwa [List.append_nil]
  | cons m more ih =>
    rw [List.append_cons]
    exact ih (h.concat (hmore m List.mem_cons_self)) fun n hn => hmore n (List.mem_cons_of_mem m hn)

theorem AppKeysAsTold.used (h : AppKeysAsTold pf t ns) (id now : String) :
    AppKeysAsTold pf
      (t.updateWhere (fun k => k.id == id) (AppKey.used now) (AppKey.id_used now)) ns where
  issued r' hr' := by
    obtain ⟨r, hr, rfl⟩ := (KeyedTable.mem_updateWhere _).mp hr'
    obtain ⟨k, key, hk, hissued⟩ := h.issued r hr
    refine ⟨k, key, hk, ?_⟩
    split
    · rw [AppKey.IssuedAs, AppKey.used, hissued]
    · exact hissued
  kept k key hk := by
    obtain ⟨r, hr, hissued⟩ := h.kept k key hk
    refine ⟨_, (KeyedTable.mem_updateWhere _).mpr ⟨r, hr, rfl⟩, ?_⟩
    split
    · rw [AppKey.IssuedAs, AppKey.used, hissued]
    · exact hissued
  standing n id' key hn hhands := by
    obtain ⟨r, hr, hid, hlive, hhash, hkeyPrefix⟩ := h.standing n id' key hn hhands
    refine ⟨_, (KeyedTable.mem_updateWhere _).mpr ⟨r, hr, rfl⟩, ?_⟩
    split
    · exact ⟨hid, hlive, hhash, hkeyPrefix⟩
    · exact ⟨hid, hlive, hhash, hkeyPrefix⟩
  live r' hr' hlive := by
    obtain ⟨r, hr, rfl⟩ := (KeyedTable.mem_updateWhere _).mp hr'
    split at hlive <;> rename_i hid <;> simp only [hid, if_true, if_false, Bool.false_eq_true]
    · exact h.live r hr hlive
    · exact h.live r hr hlive
  revoked id' := by
    rw [h.revoked id']
    constructor
    · rintro ⟨r, hr, hid, hrevoked⟩
      refine ⟨_, (KeyedTable.mem_updateWhere _).mpr ⟨r, hr, rfl⟩, ?_⟩
      split
      · exact ⟨hid, hrevoked⟩
      · exact ⟨hid, hrevoked⟩
    · rintro ⟨r', hr', hid, hrevoked⟩
      obtain ⟨r, hr, rfl⟩ := (KeyedTable.mem_updateWhere _).mp hr'
      refine ⟨r, hr, ?_⟩
      split at hid <;> split at hrevoked <;> exact ⟨hid, hrevoked⟩
  distinct := h.distinct.updateWhere (f := AppKey.used now) (fun _ => rfl) _

theorem AppKeysAsTold.added (h : AppKeysAsTold pf t ns) {k : AppKey} {key : String}
    (hinsert : t.insert? k = some t') (hlive : k.revokedAt = none)
    (hhash : k.keyHash = hashOpaqueToken pf key) (hkeyPrefix : k.keyPrefix = keyTextPrefix key)
    (hfree : ∀ r ∈ t, r.keyHash ≠ k.keyHash) :
    AppKeysAsTold pf t' (ns ++ [.appKeyIssued k key]) where
  issued r hr := by
    rcases (KeyedTable.mem_insert? hinsert).mp hr with hr | rfl
    · obtain ⟨k', key', hk', hissued⟩ := h.issued r hr
      exact ⟨k', key', List.mem_append_left _ hk', hissued⟩
    · exact ⟨r, key, by simp, rfl⟩
  kept k' key' hk' := by
    rcases List.mem_append.mp hk' with hk' | hk'
    · obtain ⟨r, hr, hissued⟩ := h.kept k' key' hk'
      exact ⟨r, (KeyedTable.mem_insert? hinsert).mpr (.inl hr), hissued⟩
    · cases List.mem_singleton.mp hk'
      exact ⟨k, (KeyedTable.mem_insert? hinsert).mpr (.inr rfl), rfl⟩
  standing n id key' hn hhands := by
    rcases standing_concat.mp hn with rfl | ⟨hn, -⟩
    · cases hhands
      exact ⟨k, (KeyedTable.mem_insert? hinsert).mpr (.inr rfl), rfl, hlive, hhash, hkeyPrefix⟩
    · obtain ⟨r, hr, hrest⟩ := h.standing n id key' hn hhands
      exact ⟨r, (KeyedTable.mem_insert? hinsert).mpr (.inl hr), hrest⟩
  live r hr hlive' := by
    rcases (KeyedTable.mem_insert? hinsert).mp hr with hr | rfl
    · obtain ⟨n, key', hn, hhands⟩ := h.live r hr hlive'
      exact ⟨n, key', hn.concat (by simp [CredentialNotice.ends]), hhands⟩
    · exact ⟨_, key, standing_last _ _ _, rfl⟩
  revoked id := by
    rw [List.mem_append, or_iff_left (by simp), h.revoked id]
    constructor
    · rintro ⟨r, hr, hrest⟩
      exact ⟨r, (KeyedTable.mem_insert? hinsert).mpr (.inl hr), hrest⟩
    · rintro ⟨r, hr, hid, hrevoked⟩
      rcases (KeyedTable.mem_insert? hinsert).mp hr with hr | rfl
      · exact ⟨r, hr, hid, hrevoked⟩
      · exact absurd hlive hrevoked
  distinct := h.distinct.insert? hinsert hfree

section Change

variable {f : AppKey → AppKey} {hf : ∀ k, (f k).id = k.id} {r : AppKey} {appId keyId : String}
  {m : CredentialNotice}

/-- **The active key of an id changes.**  What was known about the key is over, and the
    notice says what is known now. -/
theorem AppKeysAsTold.changed (h : AppKeysAsTold pf t ns) (hr : r ∈ t)
    (hactive : r.isActive appId keyId = true)
    (hissued : ∀ k, r.IssuedAs k → (f r).IssuedAs k)
    (hid : m.appKeyId = some keyId) (hends : ∀ n, m.ends n ↔ n.appKeyId = some keyId)
    (hnew : ∀ k key, m ≠ .appKeyIssued k key)
    (hhands : ∀ id key, m.handsOut = some (id, key) → (f r).revokedAt = none ∧
      (f r).keyHash = hashOpaqueToken pf key ∧ (f r).keyPrefix = keyTextPrefix key)
    (hlive : (f r).revokedAt = none → ∃ key, m.handsOut = some (keyId, key))
    (hrevokes : ∀ id, m = .appKeyRevoked id ↔ id = keyId ∧ (f r).revokedAt ≠ none)
    (hfree : ∀ r' ∈ t, r'.id ≠ keyId → r'.keyHash ≠ (f r).keyHash) :
    AppKeysAsTold pf (t.updateWhere (AppKey.isActive appId keyId) f hf) (ns ++ [m]) := by
  have hrid := AppKey.id_eq_of_isActive hactive
  have hchanged : f r ∈ t.updateWhere (AppKey.isActive appId keyId) f hf :=
    (KeyedTable.mem_updateWhere hf).mpr ⟨r, hr, by rw [if_pos hactive]⟩
  have hother : ∀ r' ∈ t, r'.id ≠ keyId →
      r' ∈ t.updateWhere (AppKey.isActive appId keyId) f hf := by
    intro r' hr' hne
    refine (KeyedTable.mem_updateWhere hf).mpr ⟨r', hr', ?_⟩
    rw [if_neg fun hactive' => hne (AppKey.id_eq_of_isActive hactive')]
  have hcases : ∀ r' ∈ t.updateWhere (AppKey.isActive appId keyId) f hf,
      r' = f r ∨ (r' ∈ t ∧ r'.id ≠ keyId) := by
    intro r' hr'
    obtain ⟨r'', hr'', rfl⟩ := (KeyedTable.mem_updateWhere hf).mp hr'
    by_cases hid' : r''.id = keyId
    · rw [AppKey.eq_of_isActive hr hactive hr'' hid', if_pos hactive]
      exact .inl rfl
    · rw [if_neg fun hactive' => hid' (AppKey.id_eq_of_isActive hactive')]
      exact .inr ⟨hr'', hid'⟩
  refine ⟨?_, ?_, ?_, ?_, ?_, ?_⟩
  · intro r' hr'
    have hback : ∃ r₀ ∈ t, ∀ k, r₀.IssuedAs k → r'.IssuedAs k := by
      rcases hcases r' hr' with rfl | ⟨hr', -⟩
      · exact ⟨r, hr, hissued⟩
      · exact ⟨r', hr', fun _ => id⟩
    obtain ⟨r₀, hr₀, hr₀'⟩ := hback
    obtain ⟨k, key, hk, hk'⟩ := h.issued r₀ hr₀
    exact ⟨k, key, List.mem_append_left _ hk, hr₀' k hk'⟩
  · intro k key hk
    rcases List.mem_append.mp hk with hk | hk
    · obtain ⟨r', hr', hk'⟩ := h.kept k key hk
      by_cases hid' : r'.id = keyId
      · rw [AppKey.eq_of_isActive hr hactive hr' hid'] at hk'
        exact ⟨f r, hchanged, hissued k hk'⟩
      · exact ⟨r', hother r' hr' hid', hk'⟩
    · exact absurd (List.mem_singleton.mp hk).symm (hnew k key)
  · intro n id key hn hhands'
    have hnid := CredentialNotice.appKeyId_of_handsOut hhands'
    rcases standing_concat.mp hn with rfl | ⟨hn, hnends⟩
    · obtain rfl : keyId = id := Option.some.inj (hid.symm.trans hnid)
      exact ⟨f r, hchanged, (hf r).trans hrid, hhands keyId key hhands'⟩
    · obtain ⟨r', hr', hr'id, hrest⟩ := h.standing n id key hn hhands'
      refine ⟨r', hother r' hr' ?_, hr'id, hrest⟩
      rintro rfl
      exact hnends ((hends n).mpr (hnid.trans (congrArg some hr'id.symm)))
  · intro r' hr' hlive'
    rcases hcases r' hr' with rfl | ⟨hr', hne⟩
    · obtain ⟨key, hkey⟩ := hlive hlive'
      exact ⟨m, key, standing_last _ _ _, by rw [hkey, hf r, hrid]⟩
    · obtain ⟨n, key, hn, hhands'⟩ := h.live r' hr' hlive'
      refine ⟨n, key, hn.concat ?_, hhands'⟩
      rw [hends, CredentialNotice.appKeyId_of_handsOut hhands']
      exact fun heq => hne (Option.some.inj heq)
  · intro id
    rw [List.mem_append, h.revoked id, List.mem_singleton, @eq_comm _ _ m, hrevokes id]
    constructor
    · rintro (⟨r', hr', rfl, hrevoked⟩ | ⟨rfl, hrevoked⟩)
      · refine ⟨r', hother r' hr' fun hid' => hrevoked ?_, rfl, hrevoked⟩
        -- the key of the id was active
        rw [AppKey.eq_of_isActive hr hactive hr' hid']
        exact AppKey.revokedAt_of_isActive hactive
      · exact ⟨f r, hchanged, (hf r).trans hrid, hrevoked⟩
    · rintro ⟨r', hr', hid', hrevoked⟩
      rcases hcases r' hr' with rfl | ⟨hr', -⟩
      · exact .inr ⟨hid'.symm.trans ((hf r).trans hrid), hrevoked⟩
      · exact .inl ⟨r', hr', hid', hrevoked⟩
  · intro r₁ hr₁ r₂ hr₂ heq
    rcases hcases r₁ hr₁ with rfl | ⟨hr₁, hne₁⟩ <;> rcases hcases r₂ hr₂ with rfl | ⟨hr₂, hne₂⟩
    · rfl
    · exact absurd heq.symm (hfree r₂ hr₂ hne₂)
    · exact absurd heq (hfree r₁ hr₁ hne₁)
    · exact h.distinct r₁ hr₁ r₂ hr₂ heq

end Change

/-- **One statement** keeps the app keys as the journal says. -/
theorem AppKeysAsTold.step (h : AppKeysAsTold pf t ns) (hstep : AppKeyStep pf t ns t' ns') :
    AppKeysAsTold pf t' ns' := by
  cases hstep with
  | kept hmore => exact h.append hmore
  | used id now => exact h.used id now
  | issued hinsert hlive hhash hkeyPrefix hfree =>
    exact h.added hinsert hlive hhash hkeyPrefix hfree
  | @rotated r appId keyId key hr hactive hfree =>
    have hlive : r.revokedAt = none := AppKey.revokedAt_of_isActive hactive
    refine h.changed hr hactive ?_ rfl (fun n => Iff.rfl) (by simp) ?_ ?_ ?_ ?_
    · intro k hk
      rw [AppKey.IssuedAs, AppKey.rotated, hk]
    · rintro id key' hhands
      cases hhands
      exact ⟨hlive, rfl, rfl⟩
    · intro _
      exact ⟨key, rfl⟩
    · intro id
      exact iff_of_false nofun fun hrevoked => hrevoked.2 hlive
    · intro r' hr' hne
      apply hfree r' hr'
      rw [← Bool.not_eq_true]
      exact fun hactive' => hne (AppKey.id_eq_of_isActive hactive')
  | @revoked r appId keyId now hr hactive =>
    refine h.changed hr hactive ?_ rfl (fun n => Iff.rfl) (by simp) nofun nofun ?_ ?_
    · intro k hk
      rw [AppKey.IssuedAs, AppKey.revoked, hk]
    · intro id
      simp [AppKey.revoked, eq_comm]
    · intro r' hr' hne heq
      rw [h.distinct r' hr' r hr heq] at hne
      exact hne (AppKey.id_eq_of_isActive hactive)

end AppKeys

/-! ### Service tokens -/

/-- The row is what was issued, but for what a revocation and a use write. -/
def ServiceToken.IssuedAs (r t : ServiceToken) : Prop :=
  r = { t with lastUsedAt := r.lastUsedAt, revokedAt := r.revokedAt }

/-- What a statement does to the service tokens. -/
inductive ServiceTokenStep (pf : Platform) (t : ServiceTokenTable) (ns : List CredentialNotice) :
    ServiceTokenTable → List CredentialNotice → Prop where
  | kept {more : List CredentialNotice} (hmore : ∀ n ∈ more, n.appKeyId.isSome = true) :
      ServiceTokenStep pf t ns t (ns ++ more)
  | used (id now : String) :
      ServiceTokenStep pf t ns
        (t.updateWhere (fun r => r.id == id) (ServiceToken.used now) (ServiceToken.id_used now)) ns
  | issued {t' : ServiceTokenTable} {r : ServiceToken} {token : String}
      (hinsert : t.insert? r = some t') (hlive : r.revokedAt = none)
      (hmode : r.accessMode = "admin") (hhash : r.tokenHash = hashOpaqueToken pf token)
      (hfree : ∀ r' ∈ t, r'.tokenHash ≠ r.tokenHash) :
      ServiceTokenStep pf t ns t' (ns ++ [.serviceTokenIssued r token])
  | revoked {r : ServiceToken} {tokenId userId : String} (now : String) (hr : r ∈ t)
      (hid : r.id = tokenId) (huser : r.userId = userId) :
      ServiceTokenStep pf t ns
        (t.updateWhere (fun r => r.id == tokenId && r.userId == userId)
          (ServiceToken.revoked now) (ServiceToken.id_revoked now))
        (ns ++ [.serviceTokenRevoked tokenId])
  | deleted (userId : String) :
      ServiceTokenStep pf t ns (t.deleteWhere fun r => r.userId == userId)
        (ns ++ [.userDeleted userId])

/-- **The service tokens are as the journal says.** -/
structure ServiceTokensAsTold (pf : Platform) (t : ServiceTokenTable)
    (ns : List CredentialNotice) : Prop where
  live : ∀ r ∈ t, r.revokedAt = none → ∃ issued token,
    Standing CredentialNotice.ends ns (.serviceTokenIssued issued token) ∧ r.IssuedAs issued
  standing : ∀ issued token,
    Standing CredentialNotice.ends ns (.serviceTokenIssued issued token) →
      issued.accessMode = "admin" ∧ issued.tokenHash = hashOpaqueToken pf token ∧
        ∃ r ∈ t, r.IssuedAs issued ∧ r.revokedAt = none
  distinct : t.Unique (·.tokenHash)

theorem ServiceTokensAsTold.empty (pf : Platform) : ServiceTokensAsTold pf .empty [] where
  live r hr := by simp [KeyedTable.empty, KeyedTable.mem_def] at hr
  standing issued token h := absurd h (not_standing_nil _ _)
  distinct := KeyedTable.unique_empty _

theorem ServiceToken.IssuedAs.id_eq {r t : ServiceToken} (h : r.IssuedAs t) : r.id = t.id :=
  congrArg (·.id) h

theorem ServiceToken.IssuedAs.userId_eq {r t : ServiceToken} (h : r.IssuedAs t) :
    r.userId = t.userId :=
  congrArg (·.userId) h

theorem CredentialNotice.not_ends_serviceToken {m : CredentialNotice}
    (hm : m.appKeyId.isSome = true) (t : ServiceToken) (token : String) :
    ¬ m.ends (serviceTokenIssued t token) := by
  cases m <;> simp_all [ends, appKeyId]

section ServiceTokens

variable {pf : Platform} {t t' : ServiceTokenTable} {ns ns' : List CredentialNotice}

theorem ServiceTokensAsTold.concat (h : ServiceTokensAsTold pf t ns) {m : CredentialNotice}
    (hm : m.appKeyId.isSome = true) : ServiceTokensAsTold pf t (ns ++ [m]) where
  live r hr hlive := by
    obtain ⟨issued, token, hstands, hissued⟩ := h.live r hr hlive
    exact ⟨issued, token, hstands.concat (CredentialNotice.not_ends_serviceToken hm _ _), hissued⟩
  standing issued token hstands := by
    rcases standing_concat.mp hstands with rfl | ⟨hstands, -⟩
    · cases hm
    · exact h.standing issued token hstands
  distinct := h.distinct

theorem ServiceTokensAsTold.append (h : ServiceTokensAsTold pf t ns)
    {more : List CredentialNotice} (hmore : ∀ n ∈ more, n.appKeyId.isSome = true) :
    ServiceTokensAsTold pf t (ns ++ more) := by
  induction more generalizing ns with
  | nil => rwa [List.append_nil]
  | cons m more ih =>
    rw [List.append_cons]
    exact ih (h.concat (hmore m List.mem_cons_self)) fun n hn => hmore n (List.mem_cons_of_mem m hn)

theorem ServiceTokensAsTold.used (h : ServiceTokensAsTold pf t ns) (id now : String) :
    ServiceTokensAsTold pf
      (t.updateWhere (fun r => r.id == id) (ServiceToken.used now) (ServiceToken.id_used now))
      ns where
  live r' hr' hlive := by
    obtain ⟨r, hr, rfl⟩ := (KeyedTable.mem_updateWhere _).mp hr'
    have hlive' : r.revokedAt = none := by
      split at hlive <;> exact hlive
    obtain ⟨issued, token, hstands, hissued⟩ := h.live r hr hlive'
    refine ⟨issued, token, hstands, ?_⟩
    split
    · rw [ServiceToken.IssuedAs, ServiceToken.used, hissued]
    · exact hissued
  standing issued token hstands := by
    obtain ⟨hmode, hhash, r, hr, hissued, hlive⟩ := h.standing issued token hstands
    refine ⟨hmode, hhash, _, (KeyedTable.mem_updateWhere _).mpr ⟨r, hr, rfl⟩, ?_⟩
    split
    · refine ⟨?_, hlive⟩
      rw [ServiceToken.IssuedAs, ServiceToken.used, hissued]
    · exact ⟨hissued, hlive⟩
  distinct := h.distinct.updateWhere (f := ServiceToken.used now) (fun _ => rfl) _

theorem ServiceTokensAsTold.added (h : ServiceTokensAsTold pf t ns) {r : ServiceToken}
    {token : String} (hinsert : t.insert? r = some t') (hlive : r.revokedAt = none)
    (hmode : r.accessMode = "admin") (hhash : r.tokenHash = hashOpaqueToken pf token)
    (hfree : ∀ r' ∈ t, r'.tokenHash ≠ r.tokenHash) :
    ServiceTokensAsTold pf t' (ns ++ [.serviceTokenIssued r token]) where
  live r' hr' hlive' := by
    rcases (KeyedTable.mem_insert? hinsert).mp hr' with hr' | rfl
    · obtain ⟨issued, token', hstands, hissued⟩ := h.live r' hr' hlive'
      exact ⟨issued, token', hstands.concat (by simp [CredentialNotice.ends]), hissued⟩
    · exact ⟨r', token, standing_last _ _ _, rfl⟩
  standing issued token' hstands := by
    rcases standing_concat.mp hstands with heq | ⟨hstands, -⟩
    · cases heq
      exact ⟨hmode, hhash, r, (KeyedTable.mem_insert? hinsert).mpr (.inr rfl), rfl, hlive⟩
    · obtain ⟨hmode', hhash', r', hr', hrest⟩ := h.standing issued token' hstands
      exact ⟨hmode', hhash', r', (KeyedTable.mem_insert? hinsert).mpr (.inl hr'), hrest⟩
  distinct := h.distinct.insert? hinsert hfree

theorem ServiceTokensAsTold.withdrawn (h : ServiceTokensAsTold pf t ns) {r : ServiceToken}
    {tokenId userId : String} (now : String) (hr : r ∈ t) (hid : r.id = tokenId)
    (huser : r.userId = userId) :
    ServiceTokensAsTold pf
      (t.updateWhere (fun r => r.id == tokenId && r.userId == userId)
        (ServiceToken.revoked now) (ServiceToken.id_revoked now))
      (ns ++ [.serviceTokenRevoked tokenId]) where
  live r' hr' hlive := by
    obtain ⟨r₀, hr₀, rfl⟩ := (KeyedTable.mem_updateWhere _).mp hr'
    split at hlive
    · cases hlive
    · rename_i hmiss
      rw [if_neg hmiss]
      obtain ⟨issued, token, hstands, hissued⟩ := h.live r₀ hr₀ hlive
      refine ⟨issued, token, hstands.concat ?_, hissued⟩
      intro hends
      -- the token of the id is the one that is revoked
      have heq : r₀ = r := t.eq_of_key_eq hr₀ hr ((hissued.id_eq.trans hends).trans hid.symm)
      rw [heq, hid, huser] at hmiss
      simp at hmiss
  standing issued token hstands := by
    rcases standing_concat.mp hstands with heq | ⟨hstands, hends⟩
    · cases heq
    · obtain ⟨hmode, hhash, r₀, hr₀, hissued, hlive⟩ := h.standing issued token hstands
      refine ⟨hmode, hhash, r₀, (KeyedTable.mem_updateWhere _).mpr ⟨r₀, hr₀, ?_⟩, hissued, hlive⟩
      have hne : r₀.id ≠ tokenId := fun heq => hends (hissued.id_eq.symm.trans heq)
      simp [hne]
  distinct := h.distinct.updateWhere (f := ServiceToken.revoked now) (fun _ => rfl) _

theorem ServiceTokensAsTold.dropped (h : ServiceTokensAsTold pf t ns) (userId : String) :
    ServiceTokensAsTold pf (t.deleteWhere fun r => r.userId == userId)
      (ns ++ [.userDeleted userId]) where
  live r hr hlive := by
    obtain ⟨hr, hother⟩ := KeyedTable.mem_deleteWhere.mp hr
    obtain ⟨issued, token, hstands, hissued⟩ := h.live r hr hlive
    refine ⟨issued, token, hstands.concat ?_, hissued⟩
    intro hends
    rw [beq_eq_false_iff_ne] at hother
    exact hother (hissued.userId_eq.trans hends)
  standing issued token hstands := by
    rcases standing_concat.mp hstands with heq | ⟨hstands, hends⟩
    · cases heq
    · obtain ⟨hmode, hhash, r, hr, hissued, hlive⟩ := h.standing issued token hstands
      refine ⟨hmode, hhash, r, KeyedTable.mem_deleteWhere.mpr ⟨hr, ?_⟩, hissued, hlive⟩
      rw [beq_eq_false_iff_ne]
      exact fun heq => hends (hissued.userId_eq.symm.trans heq)
  distinct := h.distinct.deleteWhere _

/-- **One statement** keeps the service tokens as the journal says. -/
theorem ServiceTokensAsTold.step (h : ServiceTokensAsTold pf t ns)
    (hstep : ServiceTokenStep pf t ns t' ns') : ServiceTokensAsTold pf t' ns' := by
  cases hstep with
  | kept hmore => exact h.append hmore
  | used id now => exact h.used id now
  | issued hinsert hlive hmode hhash hfree => exact h.added hinsert hlive hmode hhash hfree
  | revoked now hr hid huser => exact h.withdrawn now hr hid huser
  | deleted userId => exact h.dropped userId

end ServiceTokens

/-! ### What a statement does -/

/-- What a statement does to both tables. -/
structure CredentialStep (pf : Platform) (s s' : CredentialSystem) : Prop where
  appKeys : AppKeyStep pf s.db.appKeys s.notices s'.db.appKeys s'.notices
  serviceTokens : ServiceTokenStep pf s.serviceTokens s.notices s'.serviceTokens s'.notices

theorem AppKeyStep.refl (pf : Platform) (t : AppKeyTable) (ns : List CredentialNotice) :
    AppKeyStep pf t ns t ns := by
  simpa using @AppKeyStep.kept pf t ns [] (by simp)

theorem ServiceTokenStep.refl (pf : Platform) (t : ServiceTokenTable)
    (ns : List CredentialNotice) : ServiceTokenStep pf t ns t ns := by
  simpa using @ServiceTokenStep.kept pf t ns [] (by simp)

theorem recordAuditLog_appKeys (db : Db) (env : Env) (uuid : String) (appId : Option String)
    (claims : Claims) (action targetType targetId : String) (metadata : Value) :
    (db.recordAuditLog env uuid appId claims action targetType targetId metadata).appKeys =
      db.appKeys := by
  obtain ⟨logs, hlogs⟩ := db.recordAuditLog_frame env uuid appId claims action targetType targetId
    metadata
  rw [hlogs]

theorem recordAuthEvent_appKeys (db : Db) (env : Env) (uuid appId userId : String)
    (actor : Option String) (action : String) (metadata : Option Value) :
    (recordAuthEvent db env uuid appId userId actor action metadata).appKeys = db.appKeys := by
  obtain ⟨events, hevents⟩ := recordAuthEvent_frame db env uuid appId userId actor action metadata
  rw [hevents]

theorem deleteUser_appKeys {db db' : Db} {appId userId : String} {n : Nat}
    (h : db.deleteUser appId userId = some (n, db')) : db'.appKeys = db.appKeys := by
  unfold Db.deleteUser at h
  split at h
  · cases h
    rfl
  · split at h
    · cases h
    · cases h
      rfl

theorem deleteAdminUser_appKeys (db : Db) (env : Env) (claims : Claims) (appId userId : String) :
    (deleteAdminUser db env claims appId userId).1.appKeys = db.appKeys := by
  unfold deleteAdminUser
  refine Outcome.proceed_rule (P := fun s : Db => s.appKeys = db.appKeys) rfl ?_
  rintro ⟨claims', user⟩ -
  dsimp only
  split
  · rfl
  · rfl
  · rename_i db' _ hdelete
    rw [recordAuthEvent_appKeys, deleteUser_appKeys hdelete]

theorem Db.insertAppKey_eq_some {db db' : Db} {k : AppKey} (h : db.insertAppKey k = some db') :
    (∀ r ∈ db.appKeys, r.keyHash ≠ k.keyHash) ∧ db.appKeys.insert? k = some db'.appKeys := by
  unfold Db.insertAppKey at h
  split at h
  · rename_i hchecks
    obtain ⟨keys, hinsert, rfl⟩ := Option.map_eq_some_iff.mp h
    simp only [Bool.and_eq_true, Bool.not_eq_true', List.any_eq_false, beq_iff_eq] at hchecks
    exact ⟨fun r hr => hchecks.2 r (KeyedTable.mem_def.mp hr), hinsert⟩
  · cases h

theorem CredentialStore.insertServiceToken_eq_some {s s' : CredentialStore} {t : ServiceToken}
    (h : s.insertServiceToken t = some s') :
    (∀ r ∈ s.serviceTokens, r.tokenHash ≠ t.tokenHash) ∧
      s.serviceTokens.insert? t = some s'.serviceTokens ∧ s'.db = s.db := by
  unfold CredentialStore.insertServiceToken at h
  split at h
  · rename_i hchecks
    obtain ⟨tokens, hinsert, rfl⟩ := Option.map_eq_some_iff.mp h
    simp only [Bool.and_eq_true, Bool.not_eq_true', List.any_eq_false, beq_iff_eq] at hchecks
    exact ⟨fun r hr => hchecks.2 r (KeyedTable.mem_def.mp hr), hinsert, rfl⟩
  · cases h

/-- `rows_affected() == 0` is false. -/
theorem exists_of_any {α κ : Type*} {key : α → κ} {t : KeyedTable α key} {p : α → Bool}
    (h : t.rows.any p = true) : ∃ r ∈ t, p r = true :=
  List.any_eq_true.mp h

section Statements

variable {pf : Platform} {tk : TokenKey} {s : CredentialSystem} {env : Env}

theorem CredentialStep.refl (s : CredentialSystem) : CredentialStep pf s s :=
  ⟨.refl pf _ _, .refl pf _ _⟩

theorem CredentialStep.withDb {db : Db} (h : db.appKeys = s.db.appKeys) :
    CredentialStep pf s (s.withDb db) := by
  refine ⟨?_, .refl pf _ _⟩
  rw [CredentialSystem.withDb, h]
  exact .refl pf _ _

theorem CredentialStep.told {db : Db} {n : CredentialNotice} (hn : n.appKeyId.isSome = true)
    (h : AppKeyStep pf s.db.appKeys s.notices db.appKeys (s.notices ++ [n])) :
    CredentialStep pf s ((s.withDb db).told n) :=
  ⟨h, .kept (by simpa using hn)⟩

theorem CredentialStep.toldToken (store : CredentialStore) {n : CredentialNotice}
    (hn : n.appKeyId = none) (hdb : store.db.appKeys = s.db.appKeys)
    (h : ServiceTokenStep pf s.serviceTokens s.notices store.serviceTokens (s.notices ++ [n])) :
    CredentialStep pf s (({ s with toCredentialStore := store } : CredentialSystem).told n) := by
  refine ⟨?_, h⟩
  rw [CredentialSystem.told, hdb]
  exact .kept (by simpa using hn)

theorem rotateAppKey_step {db : Db} {appId keyId key : String}
    (h : s.db.rotateAppKey pf appId keyId key = .ok db) :
    CredentialStep pf s ((s.withDb db).told (.appKeyRotated keyId key)) := by
  obtain ⟨⟨⟩, hany, h⟩ := Outcome.bind_eq_ok.mp h
  obtain ⟨⟨⟩, hfree, h⟩ := Outcome.bind_eq_ok.mp h
  obtain ⟨r, hr, hactive⟩ := exists_of_any (Outcome.ensure_eq_ok.mp hany)
  cases h
  refine .told rfl (.rotated key hr hactive ?_)
  intro r' hr' hother hhash
  rw [Outcome.ensure_eq_ok, Bool.not_eq_true', List.any_eq_false] at hfree
  exact hfree r' (KeyedTable.mem_def.mp hr') (by simp [hother, hhash])

theorem revokeAppKey_step {db : Db} {now appId keyId : String}
    (h : s.db.revokeAppKey now appId keyId = some db) :
    CredentialStep pf s ((s.withDb db).told (.appKeyRevoked keyId)) := by
  unfold Db.revokeAppKey at h
  split at h
  · rename_i hany
    obtain ⟨r, hr, hactive⟩ := exists_of_any hany
    cases h
    exact .told rfl (.revoked now hr hactive)
  · cases h

theorem revokeServiceToken_step {store : CredentialStore} {now tokenId userId : String}
    (h : s.revokeServiceToken now tokenId userId = some store) :
    CredentialStep pf s
      (({ s with toCredentialStore := store } : CredentialSystem).told
        (.serviceTokenRevoked tokenId)) := by
  unfold CredentialStore.revokeServiceToken at h
  dsimp only at h
  split at h
  · rename_i hany
    obtain ⟨r, hr, hmatch⟩ := exists_of_any hany
    simp only [Bool.and_eq_true, beq_iff_eq] at hmatch
    cases h
    exact .toldToken _ rfl rfl (.revoked now hr hmatch.1 hmatch.2)
  · cases h

theorem authenticateSdkAppKey_step (rawKey : String) :
    CredentialStep pf s (s.withDb (authenticateSdkAppKey pf s.db env rawKey).1) := by
  unfold authenticateSdkAppKey
  split
  · exact .withDb rfl
  · exact ⟨.used _ env.now, .refl pf _ _⟩

theorem authenticateBearerPrincipal_step (timestamp : Int) (authHeader : Option String) :
    CredentialStep pf s { s with
      toCredentialStore :=
        (authenticateBearerPrincipal pf tk s.toCredentialStore env timestamp authHeader).1 } := by
  unfold authenticateBearerPrincipal
  refine Outcome.proceed_rule
    (P := fun store : CredentialStore =>
      CredentialStep pf s { s with toCredentialStore := store }) (.refl s) ?_
  intro token _
  split
  · exact .refl s
  · rcases hchecks : serviceTokenChecks pf s.toCredentialStore env timestamp token with
      e | ⟨stored, claims⟩
    · rw [authenticateServiceToken, hchecks, Outcome.proceed_error]
      unfold authenticateAppKey
      refine Outcome.proceed_rule
        (P := fun store : CredentialStore =>
          CredentialStep pf s { s with toCredentialStore := store }) (.refl s) ?_
      intro k _
      exact ⟨.used k.id env.now, .refl pf _ _⟩
    · rw [authenticateServiceToken, hchecks, Outcome.proceed_ok]
      exact ⟨.refl pf _ _, .used stored.id env.now⟩

end Statements

namespace CredentialCall

variable {pf : Platform} {tk : TokenKey} {env : Env} {s : CredentialSystem} {c : CredentialCall}
  {claims : Claims}

theorem stepCreateAppKey_step (appId : String) (payload : CreateAppKeyRequest) :
    CredentialStep pf s (stepCreateAppKey pf env s c claims appId payload).1 := by
  unfold stepCreateAppKey
  split
  · split
    · exact .refl s
    · exact .refl s
  · dsimp only
    split
    · exact .refl s
    · rename_i db hinsert
      obtain ⟨hfree, hinsert⟩ := Db.insertAppKey_eq_some hinsert
      exact .told rfl (.issued hinsert rfl rfl rfl hfree)
  · exact .withDb (recordAuditLog_appKeys ..)
  · exact .refl s

theorem stepRotateAppKey_step (appId keyId : String) :
    CredentialStep pf s (stepRotateAppKey pf env s c claims appId keyId).1 := by
  unfold stepRotateAppKey
  split
  · split
    · exact .refl s
    · exact .refl s
  · split
    · exact .refl s
    · exact .refl s
  · dsimp only
    split
    · exact .refl s
    · rename_i db hrotate
      exact rotateAppKey_step hrotate
  · exact .withDb (recordAuditLog_appKeys ..)
  · split
    · exact .refl s
    · exact .refl s
  · exact .refl s

theorem stepRevokeAppKey_step (appId keyId : String) :
    CredentialStep pf s (stepRevokeAppKey env s c claims appId keyId).1 := by
  unfold stepRevokeAppKey
  split
  · split
    · exact .refl s
    · exact .refl s
  · split
    · exact .refl s
    · rename_i db hrevoke
      exact revokeAppKey_step hrevoke
  · exact .withDb (recordAuditLog_appKeys ..)
  · exact .refl s

theorem stepCreateServiceToken_step (payload : CreateServiceTokenRequest) :
    CredentialStep pf s (stepCreateServiceToken pf env s c claims payload).1 := by
  unfold stepCreateServiceToken
  split
  · split
    · exact .refl s
    · dsimp only
      split
      · exact .refl s
      · rename_i store hinsert
        obtain ⟨hfree, hinsert, hdb⟩ := CredentialStore.insertServiceToken_eq_some hinsert
        exact .toldToken _ rfl (by rw [hdb]) (.issued hinsert rfl rfl rfl hfree)
  · exact .withDb (recordAuthEvent_appKeys ..)
  · exact .refl s

theorem stepRevokeServiceToken_step (tokenId : String) :
    CredentialStep pf s (stepRevokeServiceToken env s c claims tokenId).1 := by
  unfold stepRevokeServiceToken
  split
  · split
    · split
      · exact .refl s
      · rename_i store hrevoke
        exact revokeServiceToken_step hrevoke
    · exact .refl s
  · exact .withDb (recordAuthEvent_appKeys ..)
  · exact .refl s

theorem stepDeleteAdminUser_step (appId userId : String) :
    CredentialStep pf s (stepDeleteAdminUser env s c claims appId userId).1 := by
  unfold stepDeleteAdminUser
  split
  · have hkeys := deleteAdminUser_appKeys s.db env claims appId userId
    split
    · exact .refl s
    · rename_i db reply hdelete
      rw [hdelete] at hkeys
      exact .toldToken ⟨db, _⟩ rfl hkeys (.deleted userId)
  · exact .refl s

theorem once_step {s' : CredentialSystem} (h : CredentialStep pf s s') :
    CredentialStep pf s (once s s' c).1 := by
  unfold once
  split
  · exact h
  · exact .refl s

/-- **Every statement** of a request changes the credentials in one of a few ways. -/
theorem step_credentials (env : Env) (s : CredentialSystem) (c : CredentialCall) :
    CredentialStep pf s (step pf tk env s c).1 := by
  unfold step
  split
  · exact stepCreateAppKey_step ..
  · exact stepRotateAppKey_step ..
  · exact stepRevokeAppKey_step ..
  · exact stepCreateServiceToken_step ..
  · exact stepRevokeServiceToken_step ..
  · exact stepDeleteAdminUser_step ..
  · exact once_step (authenticateSdkAppKey_step _)
  · exact once_step (authenticateBearerPrincipal_step _ _)
  · rename_i request _
    exact once_step (.withDb (request.appKeys env s.db))

end CredentialCall

/-! ### Runs -/

/-- The tables are as the journal says. -/
structure AsTold (pf : Platform) (s : CredentialSystem) : Prop where
  appKeys : AppKeysAsTold pf s.db.appKeys s.notices
  serviceTokens : ServiceTokensAsTold pf s.serviceTokens s.notices

section Runs

variable {ι : Type*} [DecidableEq ι] (pf : Platform) (tk : TokenKey)

theorem AsTold.tick (p : Pool ι CredentialSystem CredentialCall) (t : ι × Env)
    (h : AsTold pf p.store) : AsTold pf (tick (CredentialCall.step pf tk) p t).store := by
  have hstep := @CredentialCall.step_credentials pf tk t.2 p.store (p.request t.1)
  exact ⟨h.appKeys.step hstep.appKeys, h.serviceTokens.step hstep.serviceTokens⟩

/-- **Whatever the schedule**, the tables are as the journal says. -/
theorem asTold_run (db : Db) (requests : ι → CredentialRequest) (ticks : List (ι × Env)) :
    AsTold pf (run (CredentialCall.step pf tk) (servedFrom db requests) ticks).store := by
  have hstep : ∀ (p : Pool ι CredentialSystem CredentialCall) t, AsTold pf p.store →
      AsTold pf (tick (CredentialCall.step pf tk) p t).store := AsTold.tick pf tk
  have hstart : AsTold pf (servedFrom db requests).store := ⟨.empty pf, .empty pf⟩
  exact Transition.run_preserves hstep hstart ticks

end Runs

end Peanut
