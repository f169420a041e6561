import AipuDriver.Lib.ByteReader
import Mathlib.Logic.Function.Basic

/-!
# Ranges of a memory, and files of bytes

`bytesAt` are the bytes of a range of a memory, and `storeBytes` puts a list of bytes there.
`cString` reads the bytes up to the first NUL, and `cString_eq` says that these are the bytes of a
range that has no NUL and is followed by one.

A file is the list of its bytes.  `writeAt` writes bytes at a position, over those that stand there.
Writing several lists at the start of one file gives the lists one after the other only if at most
one of them has bytes (`foldl_writeAt_eq_flatten`).
-/

namespace ByteReader

variable {mem : Memory} {p n : ℕ}

/-! ## Stores -/

/-- The bytes are stored from `p` on. -/
def storeBytes (mem : Memory) (p : ℕ) (bytes : List UInt8) : Memory :=
  fun q => if p ≤ q then bytes[q - p]?.getD (mem q) else mem q

/-- A range that is stored is found. -/
theorem storeBytes_holds (mem : Memory) (p : ℕ) (bytes : List UInt8) :
    (storeBytes mem p bytes).Holds p bytes := by
  intro i hi
  simp [storeBytes, hi]

/-- Storing what is there changes nothing. -/
theorem storeBytes_of_holds {bytes : List UInt8} (h : mem.Holds p bytes) :
    storeBytes mem p bytes = mem := by
  funext q
  unfold storeBytes
  split
  next hq =>
    cases hbyte : bytes[q - p]? with
    | none => rfl
    | some b =>
      obtain ⟨hlt, rfl⟩ := List.getElem?_eq_some_iff.mp hbyte
      rw [Option.getD_some, ← h (q - p) hlt, Nat.add_sub_cancel' hq]
  next => rfl

/-- A store leaves the other addresses alone. -/
theorem storeBytes_of_outside {bytes : List UInt8} {q : ℕ}
    (h : ¬(p ≤ q ∧ q < p + bytes.length)) : storeBytes mem p bytes q = mem q := by
  unfold storeBytes
  split
  · rw [List.getElem?_eq_none (by omega), Option.getD_none]
  · rfl

/-! ## Strings -/

/-- The `n` bytes from `p` on. -/
def bytesAt (mem : Memory) (p n : ℕ) : List UInt8 := (List.range n).map fun i => mem (p + i)

@[simp]
theorem length_bytesAt (mem : Memory) (p n : ℕ) : (bytesAt mem p n).length = n := by simp [bytesAt]

@[simp]
theorem bytesAt_zero (mem : Memory) (p : ℕ) : bytesAt mem p 0 = [] := rfl

/-- A range is two ranges, one behind the other. -/
theorem bytesAt_add (mem : Memory) (p m n : ℕ) :
    bytesAt mem p (m + n) = bytesAt mem p m ++ bytesAt mem (p + m) n := by
  simp [bytesAt, List.range_add, Nat.add_assoc]

/-- The first byte of a range. -/
theorem bytesAt_succ (mem : Memory) (p n : ℕ) :
    bytesAt mem p (n + 1) = mem p :: bytesAt mem (p + 1) n := by
  rw [Nat.add_comm, bytesAt_add]
  rfl

/-- A byte behind the range does not matter. -/
theorem bytesAt_update {b : UInt8} {q : ℕ} (hq : p + n ≤ q) :
    bytesAt (Function.update mem q b) p n = bytesAt mem p n := by
  refine List.map_congr_left fun i hi => Function.update_of_ne ?_ _ _
  have := List.mem_range.mp hi
  omega

/-- The bytes from `p` on that come before the first NUL, which is looked for in `fuel` bytes. -/
def cString (mem : Memory) (p : ℕ) : ℕ → Option (List UInt8)
  | 0 => none
  | fuel + 1 => if mem p = 0 then some [] else (cString mem (p + 1) fuel).map (mem p :: ·)

/-- A string is a range without NUL that is followed by one. -/
theorem cString_eq {fuel : ℕ} (hn : n < fuel) (hbytes : 0 ∉ bytesAt mem p n)
    (hend : mem (p + n) = 0) :
    cString mem p fuel = some (bytesAt mem p n) := by
  induction n generalizing p fuel with
  | zero =>
    obtain ⟨fuel, rfl⟩ := Nat.exists_eq_add_of_lt hn
    rw [Nat.zero_add, cString, if_pos (by simpa using hend), bytesAt_zero]
  | succ n ih =>
    obtain ⟨fuel, rfl⟩ : ∃ f, fuel = f + 1 := ⟨fuel - 1, by omega⟩
    rw [bytesAt_succ, List.mem_cons, not_or] at hbytes
    rw [cString, if_neg (Ne.symm hbytes.1),
      ih (by omega) hbytes.2 (by rwa [Nat.add_assoc, Nat.add_comm 1 n]),
      Option.map_some, bytesAt_succ]

/-! ## Files -/

/-- The file after the bytes were written at a position. -/
def writeAt (pos : ℕ) (bytes content : List UInt8) : List UInt8 :=
  content.take pos ++ bytes ++ content.drop (pos + bytes.length)

/-- Writing at the start. -/
theorem writeAt_zero (bytes content : List UInt8) :
    writeAt 0 bytes content = bytes ++ content.drop bytes.length := by
  simp [writeAt]

/-- Writing behind what was written at the start. -/
theorem writeAt_writeAt (xs ys content : List UInt8) :
    writeAt xs.length ys (writeAt 0 xs content) = writeAt 0 (xs ++ ys) content := by
  rw [writeAt_zero, writeAt_zero, writeAt, List.take_left', List.drop_append, List.length_append]
  · simp
  · rfl

variable {c : List UInt8} {ls : List (List UInt8)}

/-- No write at the start makes a file longer than the lists are together, or than it was. -/
theorem length_foldl_writeAt_le (ls : List (List UInt8)) (c : List UInt8) :
    (ls.foldl (fun content l => writeAt 0 l content) c).length ≤
      max c.length ls.flatten.length := by
  induction ls generalizing c with
  | nil => simp
  | cons l ls ih =>
    have := ih (writeAt 0 l c)
    rw [writeAt_zero, List.length_append, List.length_drop] at this
    rw [List.foldl_cons, List.flatten_cons, List.length_append]
    rw [writeAt_zero] at *
    omega

/-- Empty lists change nothing. -/
theorem foldl_writeAt_of_empty (h : ∀ l ∈ ls, l = []) :
    ls.foldl (fun content l => writeAt 0 l content) c = c := by
  induction ls with
  | nil => rfl
  | cons l ls ih =>
    rw [List.foldl_cons, h l List.mem_cons_self]
    simpa [writeAt_zero] using ih fun l hl => h l (List.mem_cons_of_mem _ hl)

/-- Lists that are written at the start of one file stand there one after the other iff at most one
of them has bytes. -/
theorem foldl_writeAt_eq_flatten : ls.foldl (fun content l => writeAt 0 l content) [] = ls.flatten ↔
    (ls.filter (· ≠ [])).length ≤ 1 := by
  induction ls with
  | nil => simp
  | cons l ls ih =>
    rcases eq_or_ne l [] with rfl | hl
    · simpa [writeAt_zero] using ih
    · rw [List.foldl_cons, writeAt_zero, List.drop_nil, List.append_nil, List.flatten_cons,
        List.filter_cons_of_pos (by simpa using hl), List.length_cons]
      have hrest : (ls.filter (· ≠ [])).length + 1 ≤ 1 ↔ ∀ l ∈ ls, l = [] := by
        rw [Nat.add_one_le_iff, Nat.lt_one_iff, List.length_eq_zero_iff, List.filter_eq_nil_iff]
        simp
      rw [hrest]
      constructor
      · intro heq
        have hlen := length_foldl_writeAt_le ls l
        rw [heq, List.length_append] at hlen
        have hpos := List.length_pos_iff.mpr hl
        have hflat : ls.flatten = [] := List.length_eq_zero_iff.mp (by omega)
        exact List.flatten_eq_nil_iff.mp hflat
      · intro hempty
        rw [foldl_writeAt_of_empty hempty, List.flatten_eq_nil_iff.mpr hempty, List.append_nil]

end ByteReader
