import OutboxDispatcher.Keys
import OutboxDispatcher.Lib.Base64
import OutboxDispatcher.Lib.Tables
import Mathlib.Data.List.Lex

/-! # Loading the key ring

`load_internal` takes the entries of the `signing_keys` map in the order of their ids. An entry
names an environment variable, and it is rejected when the name is blank, when an entry before it
has the same one, and when the variable has no secret of 32 to 256 bytes. There is a ring if no
entry is rejected, and a list of messages otherwise.

What becomes of an entry depends on the entries with its variable and on the environment, not on the
loop: `verdict` says it of all entries at once, and the loop reports it (`loaded_run`). `HasFault`
says the same of the map, without an order of iteration. -/

namespace OutboxDispatcher.Keys.Load

open OutboxDispatcher.Lib.Base64 OutboxDispatcher.Lib.Tables OutboxDispatcher.Lib.Text

/-- The `base64` crate: the bytes, or the text of the error. -/
class Base64Crate where
  decode : Engine → String → Except String (List UInt8)

def base64Standard : Engine := { urlSafe := false, padded := true }

def base64StandardNoPad : Engine := { urlSafe := false, padded := false }

def base64UrlSafe : Engine := { urlSafe := true, padded := true }

def base64UrlSafeNoPad : Engine := { urlSafe := true, padded := false }

structure SigningKeyConfig where
  secretEnv : String
  deriving DecidableEq

/-- `HashMap<String, SigningKeyConfig>`, in the order of its iteration. -/
abbrev SigningKeys := Table (Prod.fst : String × SigningKeyConfig → String)

def minSecretBytes : ℕ := 32

def maxSecretBytes : ℕ := 256

inductive Fault
  | emptyEnv
  | duplicateEnv (priorId : String)
  | unresolved (reason : String)
  | undecodable (err : String)
  | tooShort (bytes : ℕ)
  | tooLong (bytes : ℕ)
  deriving DecidableEq

def Fault.message (id secretEnv : String) : Fault → String
  | emptyEnv => s!"signing_keys[{id}]: secret_env must not be empty"
  | duplicateEnv priorId =>
    s!"signing_keys[{id}]: secret_env '{secretEnv}' is already used by key '{priorId}'"
  | unresolved reason => s!"signing_keys[{id}]: env var '{secretEnv}' {reason}"
  | undecodable err =>
    s!"signing_keys[{id}]: failed to base64-decode secret from '{secretEnv}': {err}"
  | tooShort bytes => s!"signing_keys[{id}]: secret from '{secretEnv}' is {bytes} bytes after " ++
      s!"decoding; minimum is {minSecretBytes}"
  | tooLong bytes => s!"signing_keys[{id}]: secret from '{secretEnv}' is {bytes} bytes after " ++
      s!"decoding; maximum is {maxSecretBytes}"

/-! ### The loop -/

/-- `chars().filter(|c| !c.is_whitespace())`. -/
def clean (val : String) : String := .ofList (val.toList.filter (!isWhitespace ·))

section Loop

variable [Base64Crate]

/-- The chain of decoders. Its error is that of the second. -/
def decodeSecret (cleaned : String) : Except String (List UInt8) :=
  ((Base64Crate.decode base64Standard cleaned).tryCatch fun _ =>
    Base64Crate.decode base64StandardNoPad cleaned).tryCatch fun firstErr =>
      ((Base64Crate.decode base64UrlSafe cleaned).tryCatch fun _ =>
        Base64Crate.decode base64UrlSafeNoPad cleaned).mapError fun _ => firstErr

def resolveSecret (envResolver : String → Except String String) (secretEnv : String) :
    Except Fault (List UInt8) :=
  match envResolver secretEnv with
  | .error reason => .error (.unresolved reason)
  | .ok val =>
    match decodeSecret (clean val) with
    | .error err => .error (.undecodable err)
    | .ok bytes =>
      if bytes.length < minSecretBytes then .error (.tooShort bytes.length)
      else if bytes.length > maxSecretBytes then .error (.tooLong bytes.length)
      else .ok bytes

structure LoadState where
  errors : List String
  keys : KeyRing
  seenEnvs : List (String × String)

/-- `errors.push`. -/
def LoadState.push (s : LoadState) (entry : String × SigningKeyConfig) (fault : Fault) :
    LoadState :=
  { s with errors := s.errors ++ [fault.message entry.1 entry.2.secretEnv] }

def loadEntry (envResolver : String → Except String String) (s : LoadState)
    (entry : String × SigningKeyConfig) : LoadState :=
  if trim entry.2.secretEnv = "" then s.push entry .emptyEnv
  else match s.seenEnvs.lookup entry.2.secretEnv with
    | some priorId => s.push entry (.duplicateEnv priorId)
    | none =>
      let s := { s with seenEnvs := (entry.2.secretEnv, entry.1) :: s.seenEnvs }
      match resolveSecret envResolver entry.2.secretEnv with
      | .error fault => s.push entry fault
      | .ok bytes => { s with keys := s.keys.insert entry.1 bytes }

/-- Strings are ordered by their bytes. -/
def idKey (id : String) : List ℕ := (bytes id).map UInt8.toNat

def sorted (signingKeys : SigningKeys) : List (String × SigningKeyConfig) :=
  orderBy (fun a b => idKey a.1 ≤ idKey b.1) signingKeys.rows

def loadInternal (signingKeys : SigningKeys) (envResolver : String → Except String String) :
    Except (List String) KeyRing :=
  let s := (sorted signingKeys).foldl (loadEntry envResolver) ⟨[], .empty, []⟩
  if s.errors.isEmpty then .ok s.keys else .error s.errors

end Loop

/-! ### The order of the ids -/

theorem idKey_inj {a b : String} (h : idKey a = idKey b) : a = b :=
  bytes_inj (List.map_injective_iff.mpr (fun _ _ => UInt8.toNat_inj.mp) h)

theorem mem_sorted {signingKeys : SigningKeys} {x : String × SigningKeyConfig} :
    x ∈ sorted signingKeys ↔ x ∈ signingKeys.rows := mem_orderBy

theorem idKeys_nodup (signingKeys : SigningKeys) : (signingKeys.rows.map (idKey ·.1)).Nodup := by
  have hids := signingKeys.nodup.map (f := idKey) fun _ _ => idKey_inj
  rwa [List.map_map] at hids

theorem sorted_lt (signingKeys : SigningKeys) :
    (sorted signingKeys).Pairwise fun a b => idKey a.1 < idKey b.1 :=
    orderBy_lt (idKeys_nodup signingKeys)

/-- The order of iteration of the map is of no account. -/
theorem sorted_perm {m m' : SigningKeys} (h : m.rows.Perm m'.rows) : sorted m = sorted m' :=
  orderBy_perm (idKeys_nodup m) h

/-! ### The verdict on an entry -/

section Verdict

variable [Base64Crate] (envResolver : String → Except String String)

/-- What becomes of an entry: the first of those with its variable is resolved. -/
def verdict (entries : List (String × SigningKeyConfig)) (x : String × SigningKeyConfig) :
    Except Fault (List UInt8) :=
  if trim x.2.secretEnv = "" then .error .emptyEnv
  else match entries.find? (·.2.secretEnv = x.2.secretEnv) with
    | some y =>
      if y.1 = x.1 then resolveSecret envResolver x.2.secretEnv else .error (.duplicateEnv y.1)
    | none => resolveSecret envResolver x.2.secretEnv

def fault? (entries : List (String × SigningKeyConfig)) (x : String × SigningKeyConfig) :
    Option Fault :=
  match verdict envResolver entries x with
  | .error fault => some fault
  | .ok _ => none

def report (entries : List (String × SigningKeyConfig)) (x : String × SigningKeyConfig) :
    Option String :=
  (fault? envResolver entries x).map (·.message x.1 x.2.secretEnv)

def key (entries : List (String × SigningKeyConfig)) (x : String × SigningKeyConfig) :
    Option (String × List UInt8) :=
  match verdict envResolver entries x with
  | .error _ => none
  | .ok bytes => some (x.1, bytes)

/-- The variables of the loop when the entries `done` are through. -/
structure Loaded (entries done : List (String × SigningKeyConfig)) (s : LoadState) : Prop where
  errors : s.errors = done.filterMap (report envResolver entries)
  keys : s.keys.keys = done.filterMap (key envResolver entries)
  seen : ∀ env, trim env ≠ "" →
    s.seenEnvs.lookup env = (done.find? (·.2.secretEnv = env)).map Prod.fst

variable {envResolver} {entries done rest : List (String × SigningKeyConfig)}
variable {x : String × SigningKeyConfig} {s : LoadState}

theorem keys_insert (h : s.keys.keys = done.filterMap (key envResolver entries))
    (hx : x.1 ∉ done.map Prod.fst)
    (secret : List UInt8) : (s.keys.insert x.1 secret).keys = s.keys.keys ++ [(x.1, secret)] := by
  have hother : s.keys.keys.filter (·.1 ≠ x.1) = s.keys.keys := by
    refine List.filter_eq_self.mpr fun k hk => decide_eq_true fun heq => hx ?_
    rw [h] at hk
    obtain ⟨y, hy, hkey⟩ := List.mem_filterMap.mp hk
    unfold key at hkey
    split at hkey
    · cases hkey
    · cases hkey
      exact List.mem_map.mpr ⟨y, hy, heq⟩
  show s.keys.keys.filter (·.1 ≠ x.1) ++ _ = _
  rw [hother]

theorem Loaded.push (h : Loaded envResolver entries done s) {fault : Fault}
    (hverdict : verdict envResolver entries x = .error fault) {seenEnvs : List (String × String)}
    (hseen : ∀ env, trim env ≠ "" →
      seenEnvs.lookup env = ((done ++ [x]).find? (·.2.secretEnv = env)).map Prod.fst) :
    Loaded envResolver entries (done ++ [x]) ({ s with seenEnvs }.push x fault) where
  errors := by
    have hreport : report envResolver entries x = some (fault.message x.1 x.2.secretEnv) := by
      rw [report, fault?, hverdict]
      rfl
    rw [List.filterMap_append, ← h.errors, List.filterMap_cons_some hreport]
    rfl
  keys := by
    have hkey : key envResolver entries x = none := by rw [key, hverdict]
    rw [List.filterMap_append, ← h.keys, List.filterMap_cons_none hkey, List.filterMap_nil,
      List.append_nil]
    rfl
  seen := hseen

theorem Loaded.insert (h : Loaded envResolver entries done s) (hx : x.1 ∉ done.map Prod.fst)
    {secret : List UInt8} (hverdict : verdict envResolver entries x = .ok secret)
    {seenEnvs : List (String × String)} (hseen : ∀ env, trim env ≠ "" →
      seenEnvs.lookup env = ((done ++ [x]).find? (·.2.secretEnv = env)).map Prod.fst) :
    Loaded envResolver entries
      (done ++ [x]) { s with seenEnvs, keys := s.keys.insert x.1 secret } where
  errors := by
    have hreport : report envResolver entries x = none := by
      rw [report, fault?, hverdict]
      rfl
    rw [List.filterMap_append, ← h.errors, List.filterMap_cons_none hreport, List.filterMap_nil,
      List.append_nil]
  keys := by
    have hkey : key envResolver entries x = some (x.1, secret) := by rw [key, hverdict]
    rw [List.filterMap_append, ← h.keys, List.filterMap_cons_some hkey]
    exact keys_insert h.keys hx secret
  seen := hseen

omit [Base64Crate] in
theorem find?_concat_of_ne (done : List (String × SigningKeyConfig)) {env : String}
    (h : x.2.secretEnv ≠ env) :
    (done ++ [x]).find? (·.2.secretEnv = env) = done.find? (·.2.secretEnv = env) := by
  rw [List.find?_append, List.find?_cons_of_neg (by simpa using h), List.find?_nil, Option.or_none]

/-- The first entry with a variable is resolved. -/
theorem verdict_of_find?_none (hall : entries = done ++ x :: rest)
    (hblank : trim x.2.secretEnv ≠ "") (hfind : done.find? (·.2.secretEnv = x.2.secretEnv) = none) :
    verdict envResolver entries x = resolveSecret envResolver x.2.secretEnv := by
  rw [verdict, if_neg hblank, hall, List.find?_append, hfind, List.find?_cons_of_pos (by simp),
    Option.none_or]
  exact if_pos rfl

theorem Loaded.seen_cons (h : Loaded envResolver entries done s)
    (hfind : done.find? (·.2.secretEnv = x.2.secretEnv) = none) {env : String}
    (henv : trim env ≠ "") : ((x.2.secretEnv, x.1) :: s.seenEnvs).lookup env =
      ((done ++ [x]).find? (·.2.secretEnv = env)).map Prod.fst := by
  rw [List.lookup_cons]
  by_cases heq : env = x.2.secretEnv
  · rw [heq, beq_self_eq_true, List.find?_append, hfind, List.find?_cons_of_pos (by simp)]
    rfl
  · rw [beq_eq_false_iff_ne.mpr heq, h.seen env henv, find?_concat_of_ne done (Ne.symm heq)]

theorem loaded_step (hall : entries = done ++ x :: rest) (hids : (entries.map Prod.fst).Nodup)
    (h : Loaded envResolver entries done s) :
    Loaded envResolver entries (done ++ [x]) (loadEntry envResolver s x) := by
  have hx : x.1 ∉ done.map Prod.fst := by
    rw [hall, List.map_append, List.map_cons] at hids
    intro hmem
    exact (List.nodup_append.mp hids).2.2 x.1 hmem x.1 List.mem_cons_self rfl
  unfold loadEntry
  split_ifs with hblank
  · refine h.push (by rw [verdict, if_pos hblank]) fun env henv => ?_
    have hne : ¬x.2.secretEnv = env := fun heq => henv (heq ▸ hblank)
    rw [h.seen env henv, find?_concat_of_ne done hne]
  · have hlookup := h.seen _ hblank
    rcases hfind : done.find? (·.2.secretEnv = x.2.secretEnv) with _ | y
    · rw [hfind] at hlookup
      have hverdict : verdict envResolver entries x = resolveSecret envResolver x.2.secretEnv :=
        verdict_of_find?_none hall hblank hfind
      rw [hlookup]
      dsimp only [Option.map_none]
      rcases hresolve : resolveSecret envResolver x.2.secretEnv with fault | secret
      · exact h.push (hverdict.trans hresolve) fun _ henv => h.seen_cons hfind henv
      · exact h.insert hx (hverdict.trans hresolve) fun _ henv => h.seen_cons hfind henv
    · -- the variable was noted for `y`
      rw [hfind] at hlookup
      have hne : y.1 ≠ x.1 :=
        fun heq => hx (heq ▸ List.mem_map_of_mem (List.mem_of_find?_eq_some hfind))
      have hverdict : verdict envResolver entries x = .error (.duplicateEnv y.1) := by
        rw [verdict, if_neg hblank, hall, List.find?_append, hfind]
        exact if_neg hne
      rw [hlookup]
      refine h.push hverdict fun env henv => ?_
      rw [h.seen env henv]
      by_cases heq : x.2.secretEnv = env
      · rw [← heq, List.find?_append, hfind]
        rfl
      · rw [find?_concat_of_ne done heq]

/-- **The loop gives every entry its verdict.** -/
theorem loaded_run (hids : (entries.map Prod.fst).Nodup) :
    ∀ (rest : List (String × SigningKeyConfig))
    {done : List (String × SigningKeyConfig)} {s : LoadState}, entries = done ++ rest →
    Loaded envResolver entries done s →
      Loaded envResolver entries entries (rest.foldl (loadEntry envResolver) s)
  | [], done, s, hall, h => by
    rw [List.append_nil] at hall
    rwa [← hall] at h
  | x :: rest, done, s, hall, h =>
    loaded_run hids rest (by rw [hall, List.append_assoc]; rfl) (loaded_step hall hids h)

end Verdict

/-! ### The faults of a map -/

section Faults

variable [Base64Crate] (envResolver : String → Except String String) (m : SigningKeys)

/-- The variable has a secret of an allowed length. -/
def HasSecret (secretEnv : String) (secret : List UInt8) : Prop :=
  ∃ val, envResolver secretEnv = .ok val ∧ decodeSecret (clean val) = .ok secret ∧
    32 ≤ secret.length ∧ secret.length ≤ 256

/-- The variable has none. -/
inductive SecretFault (secretEnv : String) : Fault → Prop
  | unresolved {reason : String} (h : envResolver secretEnv = .error reason) :
      SecretFault secretEnv (.unresolved reason)
  | undecodable {val err : String} (h : envResolver secretEnv = .ok val)
      (hd : decodeSecret (clean val) = .error err) : SecretFault secretEnv (.undecodable err)
  | tooShort {val : String} {bytes : List UInt8} (h : envResolver secretEnv = .ok val)
      (hd : decodeSecret (clean val) = .ok bytes) (hl : bytes.length < 32) :
      SecretFault secretEnv (.tooShort bytes.length)
  | tooLong {val : String} {bytes : List UInt8} (h : envResolver secretEnv = .ok val)
      (hd : decodeSecret (clean val) = .ok bytes) (hl : 256 < bytes.length) :
      SecretFault secretEnv (.tooLong bytes.length)

/-- Of the entries with its variable the entry has the smallest id. -/
def First (x : String × SigningKeyConfig) : Prop :=
  x ∈ m.rows ∧ ∀ y ∈ m.rows, y.2.secretEnv = x.2.secretEnv → idKey x.1 ≤ idKey y.1

/-- What is wrong with an entry of the map. -/
inductive HasFault (x : String × SigningKeyConfig) : Fault → Prop
  | emptyEnv (h : trim x.2.secretEnv = "") : HasFault x .emptyEnv
  | duplicateEnv {y : String × SigningKeyConfig} (h : trim x.2.secretEnv ≠ "") (hy : First m y)
      (henv : y.2.secretEnv = x.2.secretEnv) (hne : y.1 ≠ x.1) : HasFault x (.duplicateEnv y.1)
  | secret {fault : Fault} (h : trim x.2.secretEnv ≠ "") (hx : First m x)
      (hs : SecretFault envResolver x.2.secretEnv fault) : HasFault x fault

/-- Nothing is wrong with the map. -/
structure Loadable : Prop where
  nonblank : ∀ x ∈ m.rows, trim x.2.secretEnv ≠ ""
  distinct : (m.rows.map (·.2.secretEnv)).Nodup
  resolved : ∀ x ∈ m.rows, ∃ secret, HasSecret envResolver x.2.secretEnv secret

variable {envResolver m} {x y : String × SigningKeyConfig} {secretEnv : String}

theorem resolveSecret_eq_ok {secret : List UInt8} :
    resolveSecret envResolver secretEnv = .ok secret ↔ HasSecret envResolver secretEnv secret := by
  unfold resolveSecret HasSecret minSecretBytes maxSecretBytes
  constructor
  · intro h
    split at h
    · cases h
    · next val hval =>
      split at h
      · cases h
      · next bytes hd =>
        split_ifs at h
        cases h
        exact ⟨val, hval, hd, by omega, by omega⟩
  · rintro ⟨val, hval, hd, hmin, hmax⟩
    rw [hval]
    dsimp only
    rw [hd]
    dsimp only
    rw [if_neg (by omega), if_neg (by omega)]

theorem resolveSecret_eq_error {fault : Fault} :
    resolveSecret envResolver secretEnv = .error fault ↔
    SecretFault envResolver secretEnv fault := by
  constructor
  · intro h
    unfold resolveSecret minSecretBytes maxSecretBytes at h
    split at h
    · next reason hval =>
      cases h
      exact .unresolved hval
    · next val hval =>
      split at h
      · next err hd =>
        cases h
        exact .undecodable hval hd
      · next bytes hd =>
        split_ifs at h with hmin hmax
        · cases h
          exact .tooShort hval hd hmin
        · cases h
          exact .tooLong hval hd hmax
  · intro h
    unfold resolveSecret minSecretBytes maxSecretBytes
    cases h with
    | unresolved hval => rw [hval]
    | undecodable hval hd => simp only [hval, hd]
    | tooShort hval hd hl => simp only [hval, hd, if_pos hl]
    | tooLong hval hd hl =>
      have hmin : ¬_ < 32 := not_lt.mpr ((by omega : 32 ≤ 256).trans hl.le)
      simp only [hval, hd, if_neg hmin, if_pos hl]

omit [Base64Crate] in
/-- The loop comes to the first entry with a variable first. -/
theorem find?_sorted : (sorted m).find? (·.2.secretEnv = secretEnv) = some y ↔
    First m y ∧ y.2.secretEnv = secretEnv := by
  have hfirst : ∀ z, (sorted m).find? (·.2.secretEnv = secretEnv) = some z →
      First m z ∧ z.2.secretEnv = secretEnv := by
    intro z hz
    have henv : z.2.secretEnv = secretEnv := by simpa using List.find?_some hz
    refine ⟨⟨mem_sorted.mp (List.mem_of_find?_eq_some hz), fun w hw hwenv => ?_⟩, henv⟩
    exact le_of_find? (sorted_lt m) hz (mem_sorted.mpr hw) (decide_eq_true (hwenv.trans henv))
  refine ⟨hfirst y, ?_⟩
  rintro ⟨hy, rfl⟩
  rcases hfind : (sorted m).find? (·.2.secretEnv = y.2.secretEnv) with _ | z
  · exact absurd (List.find?_eq_none.mp hfind y (mem_sorted.mpr hy.1)) (by simp)
  · obtain ⟨hz, henv⟩ := hfirst z hfind
    have hid : z.1 = y.1 := idKey_inj (le_antisymm (hz.2 y hy.1 henv.symm) (hy.2 z hz.1 henv))
    exact hfind.trans (congrArg some (Table.eq_of_key hz.1 hy.1 hid))

omit [Base64Crate] in
theorem exists_first (hx : x ∈ m.rows) : ∃ y, First m y ∧ y.2.secretEnv = x.2.secretEnv := by
  rcases hy : (sorted m).find? (·.2.secretEnv = x.2.secretEnv) with _ | y
  · exact absurd (List.find?_eq_none.mp hy x (mem_sorted.mpr hx)) (by simp)
  · exact ⟨y, find?_sorted.mp hy⟩

omit [Base64Crate] in
theorem First.unique (hx : First m x) (hy : First m y) (henv : y.2.secretEnv = x.2.secretEnv) :
    y = x :=
  Option.some.inj ((find?_sorted.mpr ⟨hy, henv⟩).symm.trans (find?_sorted.mpr ⟨hx, rfl⟩))

theorem verdict_of_first (hblank : trim x.2.secretEnv ≠ "") (hx : First m x) :
    verdict envResolver (sorted m) x = resolveSecret envResolver x.2.secretEnv := by
  rw [verdict, if_neg hblank, find?_sorted.mpr ⟨hx, rfl⟩]
  exact if_pos rfl

theorem verdict_of_duplicate (hblank : trim x.2.secretEnv ≠ "") (hy : First m y)
    (henv : y.2.secretEnv = x.2.secretEnv) (hne : y.1 ≠ x.1) :
    verdict envResolver (sorted m) x = .error (.duplicateEnv y.1) := by
  rw [verdict, if_neg hblank, find?_sorted.mpr ⟨hy, henv⟩]
  exact if_neg hne

/-- An entry is blank, the first with its variable, or another one with it. -/
theorem verdict_cases (hx : x ∈ m.rows) :
    (trim x.2.secretEnv = "" ∧ verdict envResolver (sorted m) x = .error .emptyEnv) ∨
    (trim x.2.secretEnv ≠ "" ∧ First m x ∧
      verdict envResolver (sorted m) x = resolveSecret envResolver x.2.secretEnv) ∨
    (trim x.2.secretEnv ≠ "" ∧ ∃ y, First m y ∧ y.2.secretEnv = x.2.secretEnv ∧ y.1 ≠ x.1 ∧
      verdict envResolver (sorted m) x = .error (.duplicateEnv y.1)) := by
  by_cases hblank : trim x.2.secretEnv = ""
  · exact .inl ⟨hblank, by rw [verdict, if_pos hblank]⟩
  · obtain ⟨y, hy, henv⟩ := exists_first hx
    by_cases hid : y.1 = x.1
    · have hyx : y = x := Table.eq_of_key hy.1 hx hid
      rw [hyx] at hy
      exact .inr (.inl ⟨hblank, hy, verdict_of_first hblank hy⟩)
    · exact .inr (.inr ⟨hblank, y, hy, henv, hid, verdict_of_duplicate hblank hy henv hid⟩)

/-- **The verdict of the loop is the fault in the map.** -/
theorem verdict_eq_error (hx : x ∈ m.rows) {fault : Fault} :
    verdict envResolver (sorted m) x = .error fault ↔ HasFault envResolver m x fault := by
  constructor
  · intro h
    rcases verdict_cases hx with ⟨hblank, hv⟩ | ⟨hblank, hfirst, hv⟩ |
      ⟨hblank, y, hy, henv, hne, hv⟩
    · cases hv.symm.trans h
      exact .emptyEnv hblank
    · exact .secret hblank hfirst (resolveSecret_eq_error.mp (hv.symm.trans h))
    · cases hv.symm.trans h
      exact .duplicateEnv hblank hy henv hne
  · intro h
    cases h with
    | emptyEnv hblank => rw [verdict, if_pos hblank]
    | duplicateEnv hblank hy henv hne => exact verdict_of_duplicate hblank hy henv hne
    | secret hblank hfirst hs => rw [verdict_of_first hblank hfirst, resolveSecret_eq_error.mpr hs]

theorem verdict_eq_ok (hx : x ∈ m.rows) {secret : List UInt8} :
    verdict envResolver (sorted m) x = .ok secret ↔
      trim x.2.secretEnv ≠ "" ∧ First m x ∧ HasSecret envResolver x.2.secretEnv secret := by
  constructor
  · intro h
    rcases verdict_cases hx with ⟨-, hv⟩ | ⟨hblank, hfirst, hv⟩ | ⟨-, y, -, -, -, hv⟩
    · cases hv.symm.trans h
    · exact ⟨hblank, hfirst, resolveSecret_eq_ok.mp (hv.symm.trans h)⟩
    · cases hv.symm.trans h
  · rintro ⟨hblank, hfirst, hs⟩
    rw [verdict_of_first hblank hfirst, resolveSecret_eq_ok.mpr hs]

end Faults

/-! ### All or nothing -/

section Load

variable [Base64Crate] {envResolver : String → Except String String} {m : SigningKeys}

theorem loaded_sorted (envResolver : String → Except String String) (m : SigningKeys) :
    Loaded envResolver (sorted m) (sorted m)
      ((sorted m).foldl (loadEntry envResolver) ⟨[], .empty, []⟩) := by
  have hids : ((sorted m).map Prod.fst).Nodup :=
    ((List.perm_insertionSort _ m.rows).map Prod.fst).nodup_iff.mpr m.nodup
  exact @loaded_run _ _ _ hids (sorted m) [] _ rfl ⟨rfl, rfl, fun _ _ => rfl⟩

def offending (envResolver : String → Except String String) (m : SigningKeys) :
    List ((String × SigningKeyConfig) × Fault) :=
  (sorted m).filterMap fun x => (fault? envResolver (sorted m) x).map (x, ·)

theorem fault?_eq_some {entries : List (String × SigningKeyConfig)} {x : String × SigningKeyConfig}
    {fault : Fault} : fault? envResolver entries x = some fault ↔
    verdict envResolver entries x = .error fault := by
  unfold fault?
  cases verdict envResolver entries x <;> simp

theorem mem_offending {x : String × SigningKeyConfig} {fault : Fault} :
    (x, fault) ∈ offending envResolver m ↔ x ∈ m.rows ∧ HasFault envResolver m x fault := by
  unfold offending
  rw [List.mem_filterMap]
  constructor
  · rintro ⟨y, hy, h⟩
    obtain ⟨fault', hfault, heq⟩ := Option.map_eq_some_iff.mp h
    cases heq
    exact ⟨mem_sorted.mp hy, (verdict_eq_error (mem_sorted.mp hy)).mp (fault?_eq_some.mp hfault)⟩
  · rintro ⟨hx, h⟩
    exact ⟨x, mem_sorted.mpr hx, by rw [fault?_eq_some.mpr ((verdict_eq_error hx).mpr h)]; rfl⟩

theorem offending_lt (envResolver : String → Except String String) (m : SigningKeys) :
    (offending envResolver m).Pairwise fun p q => idKey p.1.1 < idKey q.1.1 := by
  refine (sorted_lt m).filterMap _ fun x y hxy p hp q hq => ?_
  obtain ⟨_, -, rfl⟩ := Option.map_eq_some_iff.mp hp
  obtain ⟨_, -, rfl⟩ := Option.map_eq_some_iff.mp hq
  exact hxy

theorem errors_eq (envResolver : String → Except String String) (m : SigningKeys) :
    ((sorted m).foldl (loadEntry envResolver) ⟨[], .empty, []⟩).errors =
      (offending envResolver m).map fun p => p.2.message p.1.1 p.1.2.secretEnv := by
  rw [(loaded_sorted envResolver m).errors, offending, List.map_filterMap]
  refine List.filterMap_congr fun x _ => ?_
  rw [report, Option.map_map]
  rfl

theorem loadInternal_eq_error {errors : List String}
    (h : loadInternal m envResolver = .error errors) : offending envResolver m ≠ [] ∧
      errors = (offending envResolver m).map fun p => p.2.message p.1.1 p.1.2.secretEnv := by
  unfold loadInternal at h
  dsimp only at h
  rw [errors_eq] at h
  split_ifs at h with hempty
  cases h
  exact ⟨by simpa using hempty, rfl⟩

theorem loadInternal_eq_ok {ring : KeyRing} : loadInternal m envResolver = .ok ring ↔
    offending envResolver m = [] ∧
    ((sorted m).foldl (loadEntry envResolver) ⟨[], .empty, []⟩).keys = ring := by
  unfold loadInternal
  dsimp only
  rw [errors_eq]
  split_ifs with h
  · rw [List.isEmpty_iff, List.map_eq_nil_iff] at h
    simp [h]
  · rw [List.isEmpty_iff, List.map_eq_nil_iff] at h
    simp [h]

/-- Where nothing offends every entry has its secret. -/
theorem fine_of_offending_nil (h : offending envResolver m = []) {x : String × SigningKeyConfig}
    (hx : x ∈ m.rows) : ∃ secret, verdict envResolver (sorted m) x = .ok secret := by
  rcases hv : verdict envResolver (sorted m) x with fault | secret
  · have hmem := mem_offending.mpr ⟨hx, (verdict_eq_error hx).mp hv⟩
    rw [h] at hmem
    cases hmem
  · exact ⟨secret, rfl⟩

theorem loadable_iff : Loadable envResolver m ↔ offending envResolver m = [] := by
  constructor
  · intro h
    refine List.eq_nil_iff_forall_not_mem.mpr ?_
    rintro ⟨x, fault⟩ hp
    obtain ⟨hx, hfault⟩ := mem_offending.mp hp
    cases hfault with
    | emptyEnv hblank => exact h.nonblank _ hx hblank
    | duplicateEnv _ hy henv hne =>
      exact hne (congrArg Prod.fst (List.inj_on_of_nodup_map h.distinct hy.1 hx henv))
    | secret _ _ hs =>
      obtain ⟨secret, hsecret⟩ := h.resolved _ hx
      cases (resolveSecret_eq_error.mpr hs).symm.trans (resolveSecret_eq_ok.mpr hsecret)
  · intro h
    have hfine : ∀ x ∈ m.rows, trim x.2.secretEnv ≠ "" ∧ First m x ∧
        ∃ secret, HasSecret envResolver x.2.secretEnv secret := by
      intro x hx
      obtain ⟨secret, hv⟩ := fine_of_offending_nil h hx
      obtain ⟨hblank, hfirst, hs⟩ := (verdict_eq_ok hx).mp hv
      exact ⟨hblank, hfirst, secret, hs⟩
    refine ⟨fun x hx => (hfine x hx).1, ?_, fun x hx => (hfine x hx).2.2⟩
    refine (List.Nodup.of_map _ m.nodup).map_on fun x hx y hy henv => ?_
    exact (hfine y hy).2.1.unique (hfine x hx).2.1 henv

theorem get_ring {ring : KeyRing} (h : loadInternal m envResolver = .ok ring) {id : String}
    {secret : List UInt8} : ring.get id = some secret ↔
      ∃ cfg, (id, cfg) ∈ m.rows ∧ HasSecret envResolver cfg.secretEnv secret := by
  obtain ⟨hnone, rfl⟩ := loadInternal_eq_ok.mp h
  have hkeys := (loaded_sorted envResolver m).keys
  rw [KeyRing.get_eq_some_iff, hkeys, List.mem_filterMap]
  constructor
  · rintro ⟨x, hx, hkey⟩
    unfold key at hkey
    split at hkey
    · cases hkey
    · next bytes hv =>
      cases hkey
      exact ⟨x.2, mem_sorted.mp hx, ((verdict_eq_ok (mem_sorted.mp hx)).mp hv).2.2⟩
  · rintro ⟨cfg, hx, hs⟩
    obtain ⟨secret', hv⟩ := fine_of_offending_nil hnone hx
    have hsame : secret' = secret := by
      have hs' := ((verdict_eq_ok hx).mp hv).2.2
      exact Except.ok.inj ((resolveSecret_eq_ok.mpr hs').symm.trans (resolveSecret_eq_ok.mpr hs))
    exact ⟨(id, cfg), mem_sorted.mpr hx, by rw [key, hv, hsame]⟩

/-- Of the entries with one variable all but the first are reported as duplicates. -/
theorem duplicate_iff {x y : String × SigningKeyConfig} (hblank : trim x.2.secretEnv ≠ "")
    (hx : x ∈ m.rows) (hy : First m y) (henv : y.2.secretEnv = x.2.secretEnv) :
    (∃ priorId, HasFault envResolver m x (.duplicateEnv priorId)) ↔ x ≠ y := by
  constructor
  · rintro ⟨priorId, hfault⟩ rfl
    rw [← verdict_eq_error hx, verdict_of_first hblank hy, resolveSecret_eq_error] at hfault
    cases hfault
  · intro hne
    refine ⟨y.1, .duplicateEnv hblank hy henv fun hid => hne ?_⟩
    exact Table.eq_of_key hx hy.1 hid.symm

end Load

/-- **Loading is all or nothing.** There is a ring when every entry names a variable of its own that
has a secret, and it has the ids of the map, each with its secret. Otherwise there is a message for
every entry with a fault, one for each, in the order of the ids; of the entries with one variable
all but the first are duplicates. The order in which the map is iterated is of no account. -/
theorem load_all_or_nothing [Base64Crate] (m : SigningKeys)
    (envResolver : String → Except String String) :
    ((∃ ring, loadInternal m envResolver = .ok ring) ↔ Loadable envResolver m) ∧
    (∀ ring, loadInternal m envResolver = .ok ring →
      (∀ id, ring.contains id ↔ id ∈ m.rows.map Prod.fst) ∧
      ∀ id secret, ring.get id = some secret ↔
        ∃ cfg, (id, cfg) ∈ m.rows ∧ HasSecret envResolver cfg.secretEnv secret) ∧
    (∀ errors, loadInternal m envResolver = .error errors →
      ∃ faults : List ((String × SigningKeyConfig) × Fault), faults ≠ [] ∧
        (faults.Pairwise fun p q => idKey p.1.1 < idKey q.1.1) ∧
        (∀ x fault, (x, fault) ∈ faults ↔ x ∈ m.rows ∧ HasFault envResolver m x fault) ∧
        errors = faults.map fun p => p.2.message p.1.1 p.1.2.secretEnv) ∧
    (∀ x ∈ m.rows, trim x.2.secretEnv ≠ "" → ∃ y, First m y ∧ y.2.secretEnv = x.2.secretEnv ∧
      ∀ z ∈ m.rows, z.2.secretEnv = x.2.secretEnv →
        ((∃ priorId, HasFault envResolver m z (.duplicateEnv priorId)) ↔ z ≠ y)) ∧
    ∀ m' : SigningKeys, m.rows.Perm m'.rows →
    loadInternal m' envResolver = loadInternal m envResolver := by
  refine ⟨?_, fun ring h => ⟨fun id => ?_, fun id secret => get_ring h⟩, fun errors h => ?_, ?_,
    fun m' hp => ?_⟩
  · rw [loadable_iff]
    simp only [loadInternal_eq_ok, exists_and_left, exists_eq', and_true]
  · have hnone := (loadInternal_eq_ok.mp h).1
    rw [KeyRing.contains, Option.isSome_iff_exists, List.mem_map]
    constructor
    · rintro ⟨secret, hget⟩
      obtain ⟨cfg, hx, -⟩ := (get_ring h).mp hget
      exact ⟨_, hx, rfl⟩
    · rintro ⟨x, hx, rfl⟩
      obtain ⟨secret, hv⟩ := fine_of_offending_nil hnone hx
      exact ⟨secret, (get_ring h).mpr ⟨x.2, hx, ((verdict_eq_ok hx).mp hv).2.2⟩⟩
  · obtain ⟨hne, herrors⟩ := loadInternal_eq_error h
    exact ⟨_, hne, offending_lt envResolver m, fun _ _ => mem_offending, herrors⟩
  · intro x hx hblank
    obtain ⟨y, hy, henv⟩ := exists_first hx
    refine ⟨y, hy, henv, fun z hz hzenv => ?_⟩
    exact duplicate_iff (hzenv ▸ hblank) hz hy (henv.trans hzenv.symm)
  · unfold loadInternal
    rw [sorted_perm hp]

/-- A blank variable and a shared one, neither of which is set. -/
example [Base64Crate] : loadInternal
    ⟨[("k2", ⟨"SHARED_ENV"⟩), ("k1", ⟨"SHARED_ENV"⟩), ("k0", ⟨" "⟩)], by decide⟩
    (fun _ => .error "is not set") =
      .error ["signing_keys[k0]: secret_env must not be empty",
        "signing_keys[k1]: env var 'SHARED_ENV' is not set",
        "signing_keys[k2]: secret_env 'SHARED_ENV' is already used by key 'k1'"] := by
  rfl

end OutboxDispatcher.Keys.Load
