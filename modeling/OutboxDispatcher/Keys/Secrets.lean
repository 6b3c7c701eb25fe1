import OutboxDispatcher.Keys.Load

/-! # What a secret decodes to

A secret is given in base64, and the loader takes away the white space and tries four decoders. Of
the crate it is assumed that each decoder accepts the canonical encodings of its alphabet and
padding, and nothing else (`Canonical`). A text that several decoders accept is then an encoding of
the same bytes for all of them, so that the chain returns these bytes in whatever order it tries
(`decodeSecret_eq_ok`), and the secret is loaded as the bytes that were encoded. -/

namespace OutboxDispatcher.Keys.Secrets

open OutboxDispatcher.Lib.Base64 OutboxDispatcher.Lib.Text OutboxDispatcher.Keys.Load

/-- Each engine accepts the canonical encodings of its alphabet and padding. -/
def Canonical [Base64Crate] : Prop :=
  ∀ e s data, Base64Crate.decode e s = .ok data ↔ s = encode e data

/-- A crate that does; its errors say nothing. -/
@[reducible] def canonicalCrate : Base64Crate where
  decode e s := match decode? e s with
    | some data => .ok data
    | none => .error "invalid"

theorem canonical_canonicalCrate : @Canonical canonicalCrate := by
  intro e s data
  rw [← decode?_eq_some]
  show (match decode? e s with
    | some data => Except.ok data
    | none => .error "invalid") = .ok data ↔ _
  cases decode? e s <;> simp

/-! ### White space -/

/-- White space is inserted into a text, at any positions. -/
inductive Spaced : List Char → List Char → Prop
  | nil : Spaced [] []
  | keep (c : Char) {text spaced : List Char} (h : Spaced text spaced) :
      Spaced (c :: text) (c :: spaced)
  | insert {w : Char} (hw : isWhitespace w) {text spaced : List Char} (h : Spaced text spaced) :
      Spaced text (w :: spaced)

theorem spaced_refl : ∀ text, Spaced text text
  | [] => .nil
  | c :: text => .keep c (spaced_refl text)

theorem filter_of_spaced {text spaced : List Char} (h : Spaced text spaced)
    (htext : ∀ c ∈ text, isWhitespace c = false) : spaced.filter (!isWhitespace ·) = text := by
  induction h with
  | nil => rfl
  | keep c _ ih =>
    rw [List.filter_cons_of_pos (by simp [htext c List.mem_cons_self]),
      ih fun c' hc' => htext c' (List.mem_cons_of_mem _ hc')]
  | insert hw _ ih => rw [List.filter_cons_of_neg (by simp [hw]), ih htext]

theorem clean_of_spaced {e : Engine} {data : List UInt8} {val : String}
    (h : Spaced (encode e data).toList val.toList) : clean val = encode e data := by
  rw [clean, filter_of_spaced h fun c hc => isWhitespace_of_mem_encode hc, String.ofList_toList]

/-! ### The chain of decoders -/

section Chain

variable [Base64Crate] {s : String} {data : List UInt8}

/-- The chain returns what the first decoder returns that accepts, and fails when none does. -/
theorem decodeSecret_cases (s : String) :
    (∃ e data, Base64Crate.decode e s = .ok data ∧ decodeSecret s = .ok data) ∨
    ((∀ e, ∃ err, Base64Crate.decode e s = .error err) ∧ ∃ err, decodeSecret s = .error err) := by
  unfold decodeSecret
  rcases h₁ : Base64Crate.decode base64Standard s with err₁ | data
  · rcases h₂ : Base64Crate.decode base64StandardNoPad s with err₂ | data
    · rcases h₃ : Base64Crate.decode base64UrlSafe s with err₃ | data
      · rcases h₄ : Base64Crate.decode base64UrlSafeNoPad s with err₄ | data
        · refine .inr ⟨?_, err₂, rfl⟩
          rintro ⟨_ | _, _ | _⟩
          · exact ⟨_, h₂⟩
          · exact ⟨_, h₁⟩
          · exact ⟨_, h₄⟩
          · exact ⟨_, h₃⟩
        · exact .inl ⟨_, data, h₄, rfl⟩
      · exact .inl ⟨_, data, h₃, rfl⟩
    · exact .inl ⟨_, data, h₂, rfl⟩
  · exact .inl ⟨_, data, h₁, rfl⟩

theorem decode_unique (hcrate : Canonical) {e e' : Engine} {data' : List UInt8}
    (h : Base64Crate.decode e s = .ok data) (h' : Base64Crate.decode e' s = .ok data') :
    data = data' :=
  encode_inj (((hcrate e s data).mp h).symm.trans ((hcrate e' s data').mp h'))

/-- **The order of the chain is of no account.** It returns what any of the decoders returns. -/
theorem decodeSecret_eq_ok (hcrate : Canonical) :
    decodeSecret s = .ok data ↔ ∃ e, Base64Crate.decode e s = .ok data := by
  rcases decodeSecret_cases s with ⟨e, data', he, hs⟩ | ⟨hnone, err, hs⟩
  · rw [hs]
    constructor
    · rintro ⟨⟩
      exact ⟨e, he⟩
    · rintro ⟨e', he'⟩
      rw [decode_unique hcrate he he']
  · rw [hs]
    constructor
    · rintro ⟨⟩
    · rintro ⟨e, he⟩
      obtain ⟨err', herr⟩ := hnone e
      cases he.symm.trans herr

theorem hasSecret_of_spaced (hcrate : Canonical) {envResolver : String → Except String String}
    {secretEnv val : String} {e : Engine} (hval : envResolver secretEnv = .ok val)
    (hspaced : Spaced (encode e data).toList val.toList) (hmin : 32 ≤ data.length)
    (hmax : data.length ≤ 256) : HasSecret envResolver secretEnv data := by
  refine ⟨val, hval, ?_, hmin, hmax⟩
  rw [clean_of_spaced hspaced, decodeSecret_eq_ok hcrate]
  exact ⟨e, (hcrate e _ data).mpr rfl⟩

end Chain

/-! ### What is loaded -/

/-- The variable of the entry has an encoding of the secret, in one of the four forms and with white
space anywhere. -/
def Encodes (envResolver : String → Except String String) (secret : List UInt8)
    (x : String × SigningKeyConfig) : Prop :=
  32 ≤ secret.length ∧ secret.length ≤ 256 ∧ ∃ e val, Spaced (encode e secret).toList val.toList ∧
    envResolver x.2.secretEnv = .ok val

/-- **Secrets are loaded as what was encoded.** A map whose entries name variables of their own with
encoded secrets is loaded with these secrets; in any map that is loaded an encoded secret is loaded
as it is; and decoders that accept the same text agree, so that the chain returns what any of them
does. -/
theorem load_decodes_secrets [Base64Crate] (hcrate : Canonical) :
    (∀ (m : SigningKeys) (envResolver : String → Except String String) (secret : String →
      List UInt8), (∀ x ∈ m.rows, trim x.2.secretEnv ≠ "") → (m.rows.map (·.2.secretEnv)).Nodup →
      (∀ x ∈ m.rows, Encodes envResolver (secret x.1) x) →
        ∃ ring, loadInternal m envResolver = .ok ring ∧ ∀ x ∈ m.rows,
        ring.get x.1 = some (secret x.1)) ∧
    (∀ (m : SigningKeys) (envResolver : String → Except String String) (ring : KeyRing),
      loadInternal m envResolver = .ok ring → ∀ x ∈ m.rows, ∀ secret, Encodes envResolver secret x →
        ring.get x.1 = some secret) ∧
    (∀ s e e' data data', Base64Crate.decode e s = .ok data → Base64Crate.decode e' s = .ok data' →
      data = data') ∧
    ∀ s data, decodeSecret s = .ok data ↔ ∃ e, Base64Crate.decode e s = .ok data := by
  have hsecret : ∀ (envResolver : String → Except String String) (secret : List UInt8)
      (x : String × SigningKeyConfig), Encodes envResolver secret x →
        HasSecret envResolver x.2.secretEnv secret := by
    rintro envResolver secret x ⟨hmin, hmax, e, val, hspaced, hval⟩
    exact hasSecret_of_spaced hcrate hval hspaced hmin hmax
  refine ⟨?_, ?_, fun s e e' data data' h h' => decode_unique hcrate h h',
    fun s data => decodeSecret_eq_ok hcrate⟩
  · intro m envResolver secret hblank hdistinct hencodes
    have hloadable : Loadable envResolver m :=
      ⟨hblank, hdistinct, fun x hx => ⟨_, hsecret envResolver _ x (hencodes x hx)⟩⟩
    refine ⟨_, loadInternal_eq_ok.mpr ⟨loadable_iff.mp hloadable, rfl⟩, fun x hx => ?_⟩
    exact (get_ring (loadInternal_eq_ok.mpr ⟨loadable_iff.mp hloadable, rfl⟩)).mpr
      ⟨x.2, hx, hsecret envResolver _ x (hencodes x hx)⟩
  · intro m envResolver ring h x hx secret hencodes
    exact (get_ring h).mpr ⟨x.2, hx, hsecret envResolver secret x hencodes⟩

/-- A key in the URL-safe alphabet with a line break before it. -/
theorem load_spaced_secret : ∃ ring, @loadInternal canonicalCrate
    ⟨[("k", ⟨"URL_SAFE_ENV"⟩)], List.nodup_singleton "k"⟩
    (fun _ => .ok (.ofList ('\n' :: (encode base64UrlSafe (List.replicate 32 0xFB)).toList))) =
      .ok ring ∧ ring.get "k" = some (List.replicate 32 0xFB) := by
  obtain ⟨ring, hload, hget⟩ := (@load_decodes_secrets canonicalCrate canonical_canonicalCrate).1
    ⟨[("k", ⟨"URL_SAFE_ENV"⟩)], List.nodup_singleton "k"⟩
    (fun _ => .ok (.ofList ('\n' :: (encode base64UrlSafe (List.replicate 32 0xFB)).toList)))
    (fun _ => List.replicate 32 0xFB) (List.forall_mem_singleton.mpr (by decide))
      (List.nodup_singleton _)
    fun _ _ => ⟨by decide, by decide, base64UrlSafe, _, by
      rw [String.toList_ofList]
      exact .insert rfl (spaced_refl _), rfl⟩
  exact ⟨ring, hload, hget _ List.mem_cons_self⟩

end OutboxDispatcher.Keys.Secrets
