import OutboxDispatcher.Lib.Tables
import OutboxDispatcher.Lib.Text

/-! # JSON values, and the two ways they are read

A number is kept as `jsonb` prints it: an integer, or a decimal fraction with its digits. An object
lists its fields in the order of `serde_json::Map`, sorted by key and without repetitions.

* `get`, `asStr`, `asArray`, `asObject`, `asU64` are the accessors of `serde_json::Value`.
* `field` and `int4?` are the operator `->>` and the cast `::int` of Postgres, where a string that
  spells a number is as good as the number. -/

namespace OutboxDispatcher.Lib.JsonValue

open OutboxDispatcher.Lib.Tables OutboxDispatcher.Lib.Text

inductive Json
  | null
  | bool (b : Bool)
  /-- A number without fraction digits. -/
  | int (n : ℤ)
  /-- The number `m / 10 ^ (scale + 1)`, printed with `scale + 1` fraction digits. -/
  | dec (m : ℤ) (scale : ℕ)
  | str (s : String)
  | arr (a : List Json)
  | obj (o : List (String × Json))

namespace Json

/-! ### The accessors of `serde_json` -/

/-- `Value::get` with a key. -/
def get (k : String) : Json → Option Json
  | .obj o => o.lookup k
  | _ => none

def asStr : Json → Option String
  | .str s => some s
  | _ => none

def asArray : Json → Option (List Json)
  | .arr a => some a
  | _ => none

def asObject : Json → Option (List (String × Json))
  | .obj o => some o
  | _ => none

/-- `Value::as_u64`: a non-negative integer of 64 bits; a fraction is never one. -/
def asU64 : Json → Option ℕ
  | .int n => if 0 ≤ n ∧ n < 2 ^ 64 then some n.toNat else none
  | _ => none

def isArray (v : Json) : Bool := v.asArray.isSome

/-- The string under the key `k`, if there is one. -/
def strField (k : String) (v : Json) : Option String := (v.get k).bind asStr

theorem asStr_eq_some {v : Json} {s : String} (h : v.asStr = some s) : v = .str s := by
  cases v <;> simp_all [asStr]

theorem asObject_eq_some {v : Json} {o : List (String × Json)} (h : v.asObject = some o) :
    v = .obj o := by
  cases v <;> simp_all [asObject]

theorem asArray_eq_some {v : Json} {a : List Json} (h : v.asArray = some a) : v = .arr a := by
  cases v <;> simp_all [asArray]

theorem get_eq_none_of_asObject {v : Json} (h : v.asObject = none) (k : String) :
    v.get k = none := by
  cases v <;> simp_all [asObject, get]

/-! ### Values as Postgres prints them -/

def intText (n : ℤ) : List Char :=
  (if n < 0 then ['-'] else []) ++ Nat.toDigits 10 n.natAbs

def decText (m : ℤ) (scale : ℕ) : List Char :=
  let p := 10 ^ (scale + 1)
  let frac := Nat.toDigits 10 (m.natAbs % p)
  (if m < 0 then ['-'] else []) ++ Nat.toDigits 10 (m.natAbs / p) ++ '.' ::
    (List.replicate (scale + 1 - frac.length) '0' ++ frac)

/-- A character of a string literal. -/
def escape (c : Char) : List Char :=
  if c = '"' then ['\\', '"']
  else if c = '\\' then ['\\', '\\']
  else if c = '\n' then ['\\', 'n']
  else if c = '\r' then ['\\', 'r']
  else if c = '\t' then ['\\', 't']
  else if c.toNat = 8 then ['\\', 'b']
  else if c.toNat = 12 then ['\\', 'f']
  else if c.toNat < 0x20 then
    "\\u00".toList ++ [Nat.digitChar (c.toNat / 16), Nat.digitChar (c.toNat % 16)]
  else [c]

def quote (s : String) : List Char := '"' :: (s.toList.flatMap escape ++ ['"'])

mutual

/-- The text of a `jsonb` value. -/
def text : Json → List Char
  | .null => "null".toList
  | .bool b => (toString b).toList
  | .int n => intText n
  | .dec m scale => decText m scale
  | .str s => quote s
  | .arr a => '[' :: (", ".toList.intercalate (textList a) ++ [']'])
  | .obj o => '\x7b' :: (", ".toList.intercalate
      ((orderBy (fun a b => a.1.utf8ByteSize < b.1.utf8ByteSize ||
        (a.1.utf8ByteSize == b.1.utf8ByteSize && a.1 ≤ b.1)) (textFields o)).map
          fun f => quote f.1 ++ ": ".toList ++ f.2) ++ ['\x7d'])

def textList : List Json → List (List Char)
  | [] => []
  | v :: vs => text v :: textList vs

def textFields : List (String × Json) → List (String × List Char)
  | [] => []
  | (k, v) :: fs => (k, text v) :: textFields fs

end

/-- `v ->> k`: the text of the field, a string without its quotes; `NULL` when it is missing. -/
def field (k : String) (v : Json) : Option String :=
  match v.get k with
  | none | some .null => none
  | some (.str s) => some s
  | some v => some (.ofList v.text)

/-- `isspace` of C. -/
def isSpace (c : Char) : Bool := c == ' ' || (9 ≤ c.toNat && c.toNat ≤ 13)

def digit? (base : ℕ) (c : Char) : Option ℕ :=
  let d :=
    if c.isDigit then c.toNat - '0'.toNat
    else if 'a' ≤ c ∧ c ≤ 'f' then c.toNat - 'a'.toNat + 10
    else if 'A' ≤ c ∧ c ≤ 'F' then c.toNat - 'A'.toNat + 10
    else base
  if d < base then some d else none

/-- Digits, single underscores between them: the value and what follows; `none` when an underscore
is not followed by a digit. -/
def scanDigits (base : ℕ) : ℕ → List Char → Option (ℕ × List Char)
  | n, [] => some (n, [])
  | n, c :: cs =>
    if c = '_' then
      if (cs.head?.bind (digit? base)).isSome then scanDigits base n cs else none
    else match digit? base c with
      | some d => scanDigits base (base * n + d) cs
      | none => some (n, c :: cs)

/-- The unsigned part of an integer literal. -/
def scanUnsigned : List Char → Option (ℕ × List Char)
  | '0' :: 'x' :: cs | '0' :: 'X' :: cs => scanPrefixed 16 cs
  | '0' :: 'o' :: cs | '0' :: 'O' :: cs => scanPrefixed 8 cs
  | '0' :: 'b' :: cs | '0' :: 'B' :: cs => scanPrefixed 2 cs
  | cs => if (cs.head?.bind (digit? 10)).isSome then scanDigits 10 0 cs else none
where
  /-- After a prefix: at least one digit, which an underscore may precede. -/
  scanPrefixed (base : ℕ) (cs : List Char) : Option (ℕ × List Char) :=
    if cs.head? = some '_' ∨ (cs.head?.bind (digit? base)).isSome then scanDigits base 0 cs
      else none

/-- `text::int`: an optional sign and digits between blanks, of 32 bits; `none` when it raises. -/
def int4? (s : String) : Option ℤ :=
  let (neg, cs) := match s.toList.dropWhile isSpace with
    | '-' :: cs => (true, cs)
    | '+' :: cs => (false, cs)
    | cs => (false, cs)
  (scanUnsigned cs).bind fun (n, rest) =>
    let v : ℤ := if neg then -n else n
    if rest.all isSpace ∧ -2 ^ 31 ≤ v ∧ v < 2 ^ 31 then some v else none

/-! ### An integer that is printed is read -/

theorem isSpace_eq_false {c : Char} (h : c.isDigit) : isSpace c = false := by
  have hc := toNat_of_isDigit h
  unfold isSpace
  rw [Bool.or_eq_false_iff, beq_eq_false_iff_ne]
  refine ⟨?_, by simp; omega⟩
  rintro rfl
  simp at hc

theorem digit?_eq_some {c : Char} (h : c.isDigit) : digit? 10 c = some (c.toNat - '0'.toNat) := by
  have hc := toNat_of_isDigit h
  have hlt : c.toNat - '0'.toNat < 10 := by
    show c.toNat - 48 < 10
    omega
  simp only [digit?, h, if_true, hlt]

theorem scanDigits_of_isDigit : ∀ {cs : List Char} (n : ℕ), (∀ c ∈ cs, c.isDigit) →
    scanDigits 10 n cs = some (Nat.ofDigitChars 10 cs n, [])
  | [], n, _ => by simp [scanDigits]
  | c :: cs, n, h => by
    have hc := h c (List.mem_cons_self ..)
    have hne : c ≠ '_' := by rintro rfl; cases hc
    rw [scanDigits, if_neg hne, digit?_eq_some hc]
    dsimp only
    rw [scanDigits_of_isDigit _ fun c' h' => h c' (List.mem_cons_of_mem _ h'),
      Nat.ofDigitChars_eq_foldl, Nat.ofDigitChars_eq_foldl]
    rfl

theorem scanUnsigned_toDigits (n : ℕ) : scanUnsigned (Nat.toDigits 10 n) = some (n, []) := by
  have hdig : ∀ c ∈ Nat.toDigits 10 n, c.isDigit := isDigit_of_mem_toDigits
  have hval := scanDigits_of_isDigit 0 hdig
  rw [Nat.ofDigitChars_ten_toDigits] at hval
  have hne : Nat.toDigits 10 n ≠ [] := Nat.toDigits_ne_nil
  generalize Nat.toDigits 10 n = cs at hdig hval hne
  unfold scanUnsigned
  split
  iterate 6
    have hx := (List.forall_mem_cons.mp (List.forall_mem_cons.mp hdig).2).1
    exact absurd hx (by decide)
  · obtain ⟨c, cs, rfl⟩ := List.exists_cons_of_ne_nil hne
    have hc := hdig c (List.mem_cons_self ..)
    simpa [digit?_eq_some hc] using hval

theorem int4?_intText {n : ℕ} (h : n < 2 ^ 31) : int4? (.ofList (intText n)) = some (n : ℤ) := by
  have htext : intText n = Nat.toDigits 10 n := by simp [intText]
  have hdig : ∀ c ∈ Nat.toDigits 10 n, c.isDigit := isDigit_of_mem_toDigits
  have hscan := scanUnsigned_toDigits n
  unfold int4?
  rw [htext, String.toList_ofList]
  generalize Nat.toDigits 10 n = cs at hdig hscan
  have hdrop : cs.dropWhile isSpace = cs := by
    cases cs with
    | nil => rfl
    | cons c cs => simp [isSpace_eq_false (hdig c (List.mem_cons_self ..))]
  rw [hdrop]
  split
  next neg cs' hcs =>
  have hcs' : (neg, cs') = (false, cs) := by
    rw [← hcs]
    split
    · exact absurd (hdig '-' (by simp)) (by decide)
    · exact absurd (hdig '+' (by simp)) (by decide)
    · rfl
  cases hcs'
  have hrange : -2 ^ 31 ≤ (n : ℤ) ∧ (n : ℤ) < 2 ^ 31 := by omega
  rw [hscan, Option.bind_some]
  dsimp only
  rw [if_pos ⟨rfl, hrange⟩]
  rfl

example : int4? " -1_000 " = some (-1000) := by decide

example : (obj [("a", arr [dec 150 1, str "x\"", null]), ("bb", bool true)]).text =
    "\x7b\"a\": [1.50, \"x\\\"\", null], \"bb\": true\x7d".toList := by decide

end Json

end OutboxDispatcher.Lib.JsonValue
