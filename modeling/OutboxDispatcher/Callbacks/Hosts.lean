import OutboxDispatcher.Callbacks.Fields
import OutboxDispatcher.Lib.Cidr

/-! # The hosts that are kept out

The guard against private targets reads a host in one of three notations: an IPv4 address, an IPv6
address, which may embed an IPv4 address, or a domain. What it keeps out are blocks of addresses
(`GuardedV4`, `GuardedV6`), whichever notation an address comes in, and domains up to their case and
the dots at their end (`guard_all_notations`). -/

namespace OutboxDispatcher.Callbacks.Hosts

open OutboxDispatcher.Lib.Checks OutboxDispatcher.Lib.Cidr OutboxDispatcher.Lib.Text
open OutboxDispatcher.Callbacks.Fields

/-! ### Addresses -/

def quad (a b c d : ℕ) : BitVec 32 := .ofNat 32 (((a * 256 + b) * 256 + c) * 256 + d)

/-- The IPv4 addresses that are loopback, private, link-local or unspecified. -/
def GuardedV4 (a : BitVec 32) : Prop :=
  InBlock (quad 127 0 0 0) 8 a ∨
    (InBlock (quad 10 0 0 0) 8 a ∨ InBlock (quad 172 16 0 0) 12 a ∨
      InBlock (quad 192 168 0 0) 16 a) ∨
    InBlock (quad 169 254 0 0) 16 a ∨ a = quad 0 0 0 0

/-- The IPv6 addresses `::1`, `::`, and those in `fc00::/7` and `fe80::/10`. -/
def GuardedV6 (ip : BitVec 128) : Prop :=
  ip = 1 ∨ ip = 0 ∨ InBlock (0xFC00#128 <<< 112) 7 ip ∨ InBlock (0xFE80#128 <<< 112) 10 ip

def mapped (a : BitVec 32) : BitVec 128 := 0xFFFF#96 ++ a

def compatible (a : BitVec 32) : BitVec 128 := 0#96 ++ a

/-- **The four tests are the blocks.** -/
theorem isPrivateIpv4_iff (a : BitVec 32) : isPrivateIpv4 a ↔ GuardedV4 a := by
  simp only [isPrivateIpv4, ipv4IsLoopback, ipv4IsPrivate, ipv4IsLinkLocal, ipv4IsUnspecified,
    GuardedV4, Bool.or_eq_true, beq_iff_eq, or_assoc]
  rw [inBlock_iff (by decide), inBlock_iff (by decide), inBlock_iff (by decide),
    inBlock_iff (by decide),
    inBlock_iff (by decide)]
  exact Iff.rfl

theorem nativeChecks_iff (ip : BitVec 128) :
    (ipv6IsLoopback ip || ipv6IsUnspecified ip || ipv6IsUniqueLocal ip ||
      ipv6IsUnicastLinkLocal ip) ↔
      GuardedV6 ip := by
  simp only [ipv6IsLoopback, ipv6IsUnspecified, ipv6IsUniqueLocal, ipv6IsUnicastLinkLocal,
    GuardedV6, Bool.or_eq_true, beq_iff_eq, or_assoc]
  rw [inBlock_iff (by decide), inBlock_iff (by decide)]
  exact Iff.rfl

theorem toIpv4_mapped (a : BitVec 32) : toIpv4 (mapped a) = some a := by
  unfold toIpv4 mapped
  rw [append_ushiftRight, setWidth_append]
  rfl

theorem toIpv4_compatible (a : BitVec 32) : toIpv4 (compatible a) = some a := by
  unfold toIpv4 compatible
  rw [append_ushiftRight, setWidth_append]
  rfl

theorem not_guardedV6_mapped (a : BitVec 32) : ¬GuardedV6 (mapped a) := by
  have hshift : mapped a >>> 32 = 0xFFFF#128 := append_ushiftRight _ _
  unfold GuardedV6
  rw [inBlock_iff (by decide), inBlock_iff (by decide)]
  rintro (h | h | h | h)
  · rw [h] at hshift
    exact absurd hshift (by decide)
  · rw [h] at hshift
    exact absurd hshift (by decide)
  · rw [show 128 - 7 = 32 + 89 from rfl, BitVec.shiftRight_add, hshift] at h
    exact absurd h (by decide)
  · rw [show 128 - 10 = 32 + 86 from rfl, BitVec.shiftRight_add, hshift] at h
    exact absurd h (by decide)

theorem isPrivateHost_ipv6 (ip : BitVec 128) :
    isPrivateHost (.ipv6 ip) ↔ (toIpv4 ip).any isPrivateIpv4 ∨ GuardedV6 ip := by
  rw [isPrivateHost, ← nativeChecks_iff]
  split_ifs with h
  · exact ⟨fun _ => .inl h, fun _ => rfl⟩
  · rw [or_iff_right h]

theorem isPrivateHost_mapped (a : BitVec 32) :
    isPrivateHost (.ipv6 (mapped a)) ↔ isPrivateHost (.ipv4 a) := by
  rw [isPrivateHost_ipv6, toIpv4_mapped, Option.any_some, or_iff_left (not_guardedV6_mapped a)]
  rfl

/-! ### Domains -/

/-- The test on a domain in lower case without dots at its end. -/
def isBlockedName (lower : String) : Bool :=
  lower == "localhost" || endsWith lower ".local" || endsWith lower ".localhost" ||
    endsWith lower ".internal" || endsWith lower ".lan" || endsWith lower ".home.arpa"

theorem isBlockedDomain_eq (d : String) :
    isBlockedDomain d = isBlockedName (trimEndMatches '.' (toAsciiLowercase d)) :=
  congrArg isBlockedName (toAsciiLowercase_trimEnd_dot d)

theorem isBlockedName_append (s : String) {t : String} (h : isBlockedName t) :
    isBlockedName (s ++ ("." ++ t)) := by
  simp only [isBlockedName, Bool.or_eq_true, beq_iff_eq, or_assoc] at h ⊢
  rcases h with rfl | h | h | h | h | h
  · exact .inr (.inr (.inl (endsWith_append s (by decide))))
  · exact .inr (.inl (endsWith_append s (endsWith_append "." h)))
  · exact .inr (.inr (.inl (endsWith_append s (endsWith_append "." h))))
  · exact .inr (.inr (.inr (.inl (endsWith_append s (endsWith_append "." h)))))
  · exact .inr (.inr (.inr (.inr (.inl (endsWith_append s (endsWith_append "." h))))))
  · exact .inr (.inr (.inr (.inr (.inr (endsWith_append s (endsWith_append "." h))))))

theorem isBlockedDomain_case {d d' : String} (h : toAsciiLowercase d' = toAsciiLowercase d) :
    isBlockedDomain d' = isBlockedDomain d := by
  rw [isBlockedDomain_eq, isBlockedDomain_eq, h]

theorem isBlockedDomain_dots (d : String) (n : ℕ) :
    isBlockedDomain (d ++ .ofList (List.replicate n '.')) = isBlockedDomain d := by
  unfold isBlockedDomain
  rw [trimEndMatches_append_replicate]

theorem isBlockedDomain_subdomain (p : String) {d : String} (h : isBlockedDomain d) :
    isBlockedDomain (p ++ "." ++ d) := by
  rw [isBlockedDomain_eq] at h ⊢
  have hne : trimEndMatches '.' (toAsciiLowercase d) ≠ "" := by
    intro hnil
    rw [hnil] at h
    exact absurd h (by decide)
  rw [toAsciiLowercase_append, toAsciiLowercase_append, trimEndMatches_append _ hne,
    String.append_assoc]
  exact isBlockedName_append _ h

/-! ### URLs -/

section

variable [Crates]

def Rejected (u : String) (insecure : Bool) : Prop := ∃ e, validateUrl u insecure false = .error e

theorem rejected_iff {u : String} {insecure : Bool} :
    Rejected u insecure ↔ validateUrl u insecure false ≠ .ok () := by
  unfold Rejected
  cases validateUrl u insecure false with
  | error e => simp
  | ok x => simp

theorem rejected_of_private {u : String} {p : Url} {host : Host} (insecure : Bool)
    (hp : Crates.parseUrl u = some p) (hhost : p.host = some host) (h : isPrivateHost host) :
    Rejected u insecure := by
  rw [rejected_iff, Ne, validateUrl_eq_ok]
  rintro ⟨p', host', hp', -, -, -, hhost', hprivate⟩
  rw [hp, Option.some.injEq] at hp'
  subst hp'
  rw [hhost, Option.some.injEq] at hhost'
  subst hhost'
  exact hprivate.elim Bool.noConfusion (absurd h)

/-- URLs that differ in their hosts only are rejected together, if the hosts are private together.
-/
theorem rejected_congr {u u' : String} {p : Url} {host host' : Host} (insecure : Bool)
    (hp : Crates.parseUrl u = some { p with host := some host })
    (hp' : Crates.parseUrl u' = some { p with host := some host' })
    (h : isPrivateHost host ↔ isPrivateHost host') : Rejected u insecure ↔
    Rejected u' insecure := by
  simp only [rejected_iff, Ne, validateUrl_eq_ok, hp, hp', Option.some.injEq, exists_eq_left',
    exists_and_left, h]

/-- **The guard does not depend on the notation.** Private targets not being allowed, a URL is
rejected when its host is an IPv4 address that is loopback, private, link-local or unspecified,
plain or embedded in an IPv6 address; a mapped address is rejected iff the plain one is; so are the
IPv6 addresses of this kind; and a domain is blocked or not whatever its case and the dots at its
end, with all its subdomains. -/
theorem guard_all_notations (insecure : Bool) :
    (∀ a, GuardedV4 a → ∀ host ∈ [Host.ipv4 a, .ipv6 (mapped a), .ipv6 (compatible a)],
      ∀ u p, Crates.parseUrl u = some p → p.host = some host → Rejected u insecure) ∧
    (∀ a u u' (p : Url), Crates.parseUrl u = some { p with host := some (.ipv4 a) } →
      Crates.parseUrl u' = some { p with host := some (.ipv6 (mapped a)) } →
      (Rejected u' insecure ↔ Rejected u insecure)) ∧
    (∀ ip, GuardedV6 ip → ∀ u p, Crates.parseUrl u = some p → p.host = some (.ipv6 ip) →
      Rejected u insecure) ∧
    ∀ d, (∀ d', toAsciiLowercase d' = toAsciiLowercase d → isBlockedDomain d' = isBlockedDomain d) ∧
      (∀ n, isBlockedDomain (d ++ .ofList (List.replicate n '.')) = isBlockedDomain d) ∧
      (isBlockedDomain d → ∀ p, isBlockedDomain (p ++ "." ++ d)) := by
  refine ⟨fun a ha host hmem u p hp hhost => ?_, fun a u u' p hp hp' => ?_,
    fun ip hip u p hp hhost => ?_,
    fun d => ⟨fun d' h => isBlockedDomain_case h, isBlockedDomain_dots d,
      fun h p => isBlockedDomain_subdomain p h⟩⟩
  · have hplain : isPrivateIpv4 a := (isPrivateIpv4_iff a).mpr ha
    refine rejected_of_private insecure hp hhost ?_
    simp only [List.mem_cons, List.not_mem_nil, or_false] at hmem
    rcases hmem with rfl | rfl | rfl
    · exact hplain
    · exact (isPrivateHost_mapped a).mpr hplain
    · exact (isPrivateHost_ipv6 _).mpr (.inl (by rw [toIpv4_compatible]; exact hplain))
  · exact rejected_congr insecure hp' hp (isPrivateHost_mapped a)
  · exact rejected_of_private insecure hp hhost ((isPrivateHost_ipv6 ip).mpr (.inr hip))

end

/-- A `Url::parse` that finds one host in every text. -/
@[reducible] def hostCrate (host : Host) : Crates where
  parseUrl _ := some { scheme := "https", username := "", password := none, host := some host }
  decode := some

/-- The loopback address as a mapped one. -/
theorem guard_mapped_loopback :
    @Rejected (hostCrate (.ipv6 (mapped (quad 127 0 0 1)))) "https://[::ffff:7f00:1]/hook" false :=
  (@guard_all_notations (hostCrate (.ipv6 (mapped (quad 127 0 0 1)))) false).1 (quad 127 0 0 1)
    ((isPrivateIpv4_iff _).mp (by decide)) _ (by simp) _ _ rfl rfl

end OutboxDispatcher.Callbacks.Hosts
