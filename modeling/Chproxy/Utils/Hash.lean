/-
The hashes of `utils.go`: 32-bit FNV-1a of a string, of a string map and of credentials.
-/
import Chproxy.Lib.Tables
import Mathlib.Data.List.Sort
import Mathlib.Data.String.Basic

namespace Chproxy.Utils

/-- The bytes of a Go string. -/
def bytes (s : String) : List UInt8 := s.toList.flatMap String.utf8EncodeChar

/-- `fnv.New32a`, after writing `bs`. -/
def fnv32a (bs : List UInt8) : UInt32 := bs.foldl (fun h b => (h ^^^ b.toUInt32) * 16777619) 2166136261

def hash (s : String) : UInt32 := fnv32a (bytes s)

/-- A `map[string]string`. -/
abbrev StringMap := AList fun _ : String => String

def StringMap.get (m : StringMap) (k : String) : String := (m.lookup k).getD ""

/-- The pairs of a map in the order of `sort.Strings` on its keys. -/
def sortedPairs (m : StringMap) : List (String × String) :=
  (m.keys.insertionSort (· ≤ ·)).map fun k => (k, m.get k)

/-- What `calcMapHash` writes into the hash. -/
def mapString (m : StringMap) : String :=
  (sortedPairs m).foldl (fun s p => s ++ (p.1 ++ "=" ++ p.2 ++ "&")) ""

def calcMapHash (m : StringMap) : UInt32 := if m.keys.length = 0 then 0 else hash (mapString m)

def calcCredentialHash (user pwd : String) : UInt32 := hash (user ++ pwd)

/-! ## Reading the text of a map back -/

theorem mem_sortedPairs {m : StringMap} {k v : String} : (k, v) ∈ sortedPairs m ↔ m.lookup k = some v := by
  exact Tables.mem_map_lookup (fun k => List.mem_insertionSort _) ""

theorem lookup_eq_of_sortedPairs {m m' : StringMap} (h : sortedPairs m = sortedPairs m') (k : String) :
    m.lookup k = m'.lookup k := by
  ext v
  rw [← mem_sortedPairs, ← mem_sortedPairs, h]

theorem toList_foldl_pairs : ∀ (ps : List (String × String)) (s : String),
    (ps.foldl (fun s p => s ++ (p.1 ++ "=" ++ p.2 ++ "&")) s).toList =
      s.toList ++ Tables.pairsText '=' '&' (ps.map fun p => (p.1.toList, p.2.toList))
  | [], s => by simp [Tables.pairsText]
  | p :: ps, s => by
    rw [List.foldl_cons, toList_foldl_pairs ps]
    simp [Tables.pairsText]

/-- No name holds `=` and no value holds `&`. -/
def PlainMap (m : StringMap) : Prop := ∀ k v, m.lookup k = some v → '=' ∉ k.toList ∧ '&' ∉ v.toList

/-- The text of a plain map determines the map. -/
theorem lookup_eq_of_mapString {m m' : StringMap} (hm : PlainMap m) (hm' : PlainMap m')
    (h : mapString m = mapString m') (k : String) : m.lookup k = m'.lookup k := by
  have hplain : ∀ m : StringMap, PlainMap m →
      Tables.Plain '=' '&' ((sortedPairs m).map fun p => (p.1.toList, p.2.toList)) := by
    intro m hm p hp
    obtain ⟨⟨k, v⟩, hkv, rfl⟩ := List.mem_map.1 hp
    exact hm k v (mem_sortedPairs.1 hkv)
  have htext := congrArg String.toList h
  simp only [mapString, toList_foldl_pairs] at htext
  have hpairs := Tables.pairsText_injective (hplain m hm) (hplain m' hm') (List.append_cancel_left htext)
  have hinj : Function.Injective fun p : String × String => (p.1.toList, p.2.toList) := by
    rintro ⟨a, b⟩ ⟨c, d⟩ h
    simpa [String.toList_inj] using h
  exact lookup_eq_of_sortedPairs (hinj.list_map hpairs) k

end Chproxy.Utils
