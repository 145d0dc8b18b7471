/-
The text of a query (`utils.go`): leading comments, which queries may be cached, and the canonical
form of a comma-separated header.
-/
import Chproxy.Utils.Hash

namespace Chproxy.Utils

abbrev Bytes := List UInt8

/-- `bytes.IndexByte` followed by the slice after the byte found. -/
def afterByte (b : UInt8) : Bytes → Option Bytes
  | [] => none
  | x :: q => if x = b then some q else afterByte b q

/-- The inner loop over `/* comment */`: from the opening on, look for a `*` followed by `/`. `fuel`
bounds the number of stars. -/
def afterBlockComment : Nat → Bytes → Option Bytes
  | 0, _ => none
  | fuel + 1, q =>
    match afterByte 42 q with
    | none => none
    | some [] => none
    | some (x :: q) => if x = 47 then some q else afterBlockComment fuel (x :: q)

/-- The loop of `skipLeadingComments`; every round consumes a byte, so `fuel` is the length. -/
def skipLeadingCommentsLoop : Nat → Bytes → Bytes
  | 0, _ => []
  | _ + 1, [] => []
  | fuel + 1, x :: q =>
    if x = 9 ∨ x = 10 ∨ x = 11 ∨ x = 12 ∨ x = 13 ∨ x = 32 then skipLeadingCommentsLoop fuel q
    -- `--` up to the end of the line
    else if x = 45 then
      if q.head? ≠ some 45 then x :: q
      else match afterByte 10 (x :: q) with
        | none => []
        | some q => skipLeadingCommentsLoop fuel q
    -- `/*` up to `*/`
    else if x = 47 then
      if q.head? ≠ some 42 then x :: q
      else match afterBlockComment (x :: q).length (x :: q) with
        | none => []
        | some q => skipLeadingCommentsLoop fuel q
    else x :: q

def skipLeadingComments (q : Bytes) : Bytes := skipLeadingCommentsLoop q.length q

/-- `bytes.ToUpper`, on the bytes that can make up a cachable statement: a letter beyond ASCII takes
more than one byte, so a slice with one never spells a statement of its own length. -/
def toUpper (b : UInt8) : UInt8 := if 97 ≤ b ∧ b ≤ 122 then b - 32 else b

def cachableStatements : List Bytes := ["SELECT", "WITH"].map bytes

def canCacheQuery (q : Bytes) : Bool :=
  let q := skipLeadingComments q
  cachableStatements.any fun statement =>
    if q.length < statement.length then false
    else statement.isPrefixOf ((q.take statement.length).map toUpper)

/-! ## Headers -/

/-- `unicode.IsSpace`. -/
def isSpace (c : Char) : Bool :=
  c.toNat ∈ [9, 10, 11, 12, 13, 32, 0x85, 0xA0, 0x1680, 0x2028, 0x2029, 0x202F, 0x205F, 0x3000] ||
    (0x2000 ≤ c.toNat && c.toNat ≤ 0x200A)

def trimSpace (s : List Char) : List Char := ((s.dropWhile isSpace).reverse.dropWhile isSpace).reverse

/-- `strings.Join` of `sort.Strings` of the trimmed items of `strings.Split`. -/
def sortHeader (header : String) : String :=
  let h := (header.toList.splitOn ',').map fun v => String.ofList (trimSpace v)
  ((h.insertionSort (· ≤ ·)).intersperse ",").foldl (· ++ ·) ""

end Chproxy.Utils
