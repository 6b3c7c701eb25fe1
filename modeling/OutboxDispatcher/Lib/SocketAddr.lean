import OutboxDispatcher.Lib.JsonValue

/-! # Socket addresses

`str::parse::<SocketAddr>`: an IPv4 address or a bracketed IPv6 address, and a port. A reader
returns what is left of the text when it succeeds; only whether the text is read to its end matters
here, so the readers keep no address. -/

namespace OutboxDispatcher.Lib.SocketAddr

open OutboxDispatcher.Lib.JsonValue.Json

/-- A reader of the front of a text. -/
abbrev Reader := List Char → Option (List Char)

def readGivenChar (c : Char) : Reader
  | [] => none
  | c' :: cs => if c' = c then some cs else none

/-- A number up to `max` of at most `maxDigits` digits. -/
def readNumber (radix max : ℕ) (maxDigits : Option ℕ) (allowZeroPrefix : Bool) : Reader := fun cs =>
  let digits := cs.takeWhile fun c => (digit? radix c).isSome
  let value := digits.foldl (fun n c => radix * n + (digit? radix c).getD 0) 0
  if digits.isEmpty || maxDigits.any (· < digits.length) then none
  else if !allowZeroPrefix && digits.head? == some '0' && 1 < digits.length then none
  else if value ≤ max then some (cs.drop digits.length)
  else none

/-- The separator before every part but the first. -/
def readSeparator (sep : Char) (index : ℕ) (inner : Reader) : Reader := fun cs =>
  if index = 0 then inner cs else (readGivenChar sep cs).bind inner

def readIpv4Addr : Reader := fun cs =>
  (List.range 4).foldlM (fun cs i => readSeparator '.' i (readNumber 10 255 (some 3) false) cs) cs

/-- The groups from `i` on, at most `left` of them: how many there are, whether the last two are an
IPv4 address, and what is left. -/
def readGroups : ℕ → ℕ → List Char → ℕ × Bool × List Char
  | i, 0, cs => (i, false, cs)
  | i, left + 1, cs =>
    match if 0 < left then readSeparator ':' i readIpv4Addr cs else none with
    | some rest => (i + 2, true, rest)
    | none =>
      match readSeparator ':' i (readNumber 16 0xFFFF (some 4) true) cs with
      | some rest => readGroups (i + 1) left rest
      | none => (i, false, cs)

/-- Eight groups, or fewer around a `::`. -/
def readIpv6Addr : Reader := fun cs =>
  let (headSize, headIpv4, rest) := readGroups 0 8 cs
  if headSize = 8 then some rest
  else if headIpv4 then none
  else do
    let rest ← readGivenChar ':' rest
    let rest ← readGivenChar ':' rest
    return (readGroups 0 (8 - (headSize + 1)) rest).2.2

def readPort : Reader := fun cs => (readGivenChar ':' cs).bind (readNumber 10 0xFFFF none true)

def readScopeId : Reader :=
  fun cs => (readGivenChar '%' cs).bind (readNumber 10 0xFFFFFFFF none true)

def readSocketAddrV4 : Reader := fun cs => (readIpv4Addr cs).bind readPort

def readSocketAddrV6 : Reader := fun cs => do
  let rest ← readGivenChar '[' cs
  let rest ← readIpv6Addr rest
  let rest ← readGivenChar ']' ((readScopeId rest).getD rest)
  readPort rest

/-- The text is a socket address. -/
def isSocketAddr (s : String) : Bool :=
  (readSocketAddrV4 s.toList).or (readSocketAddrV6 s.toList) == some []

example : isSocketAddr "0.0.0.0:9090" ∧ isSocketAddr "[::]:9090" ∧ isSocketAddr "[fe80::1%2]:80" ∧
    isSocketAddr "[::ffff:1.2.3.4]:80" ∧ ¬isSocketAddr "0.0.0.0" ∧ ¬isSocketAddr "01.2.3.4:80" := by
  decide

end OutboxDispatcher.Lib.SocketAddr
