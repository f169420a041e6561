import AipuDriver.Lib.MemoryBytes
import AipuDriver.Umd.Interface
import Mathlib.Algebra.Group.Int.Defs

/-!
# The output of the log buffers (`aipu_printf.cpp`, `standard_api_impl.cpp`)

A job writes its log into buffers of 1 MiB, each with a header of two integers.  `AIPU_printf`
prints the logs of a list of buffers to the terminal, or writes them to a file.

The terminal gets a log as a string: the byte behind the log becomes zero while `printf` runs.  That
byte is behind the buffer when the log ends where the buffer does.  The file is opened for each
buffer anew, without `O_APPEND`, so that each log is written over those before it.

The two outputs agree exactly when no log ends at the end of its buffer and at most one buffer has a
log (`aipuPrintf_agrees_iff`).  The calls of `open` and `write` succeed here, and `write` writes all
bytes.
-/

namespace Aipu

open ByteReader

/-! ## The program -/

/-- `BUFFER_LEN` -/
def bufferLen : ℕ := 1024 * 1024

/-- `LOG_HEADER_SZ` -/
def logHeaderSz : ℕ := 8

/-- A range of bytes that was read or written when the log of a buffer was printed. -/
structure PrintfAccess where
  buffer : ℕ
  addr : ℕ
  len : ℕ
deriving DecidableEq, Repr

/-- The memory of the process, and what it has written. -/
structure PrintfState where
  mem : Memory
  terminal : List UInt8 := []
  /-- The file with the name `redirect_file`, if there is one. -/
  file : Option (List UInt8) := none
  accesses : List PrintfAccess := []

/-- The `int` at an address. -/
def intAt (mem : Memory) (p : ℕ) : ℤ := (mem.word p).toBitVec.toInt

/-- `header->overwrite_flag` -/
def overwriteFlag (mem : Memory) (base : ℕ) : ℤ := intAt mem base

/-- `header->write_offset` -/
def writeOffset (mem : Memory) (base : ℕ) : ℤ := intAt mem (base + 4)

/-- The number as a word of 64 bits: a pointer that an offset was added to, or a length. -/
def word64 (n : ℤ) : ℕ := (n % 2 ^ 64).toNat

/-- The bytes are accessed. -/
def PrintfState.touch (s : PrintfState) (base p n : ℕ) : PrintfState :=
  { s with accesses := s.accesses ++ [⟨base, p, n⟩] }

/-- `*p = b` -/
def PrintfState.store (s : PrintfState) (base p : ℕ) (b : UInt8) : PrintfState :=
  { s.touch base p 1 with mem := Function.update s.mem p b }

/-- `printf("%s", p)`; `none` when the string does not end. -/
def PrintfState.printString (s : PrintfState) (base p : ℕ) : Option PrintfState :=
  (cString s.mem p (2 ^ 64 - p)).map fun bytes =>
    { s.touch base p (bytes.length + 1) with terminal := s.terminal ++ bytes }

/-- `putchar` -/
def PrintfState.putchar (s : PrintfState) (b : UInt8) :
    PrintfState := { s with terminal := s.terminal ++ [b] }

/-- The string from `start` on is printed with a zero at `end_pos`, and with `last` the byte there
too. -/
def PrintfState.printUntil (s : PrintfState) (base start endPos : ℕ) (last : Bool) :
    Option PrintfState :=
  let endChar := s.mem endPos
  ((s.store base endPos 0).printString base start).map fun s =>
    (if last then s.putchar endChar else s).store base endPos endChar

/-- `open` with `O_CREAT|O_RDWR` -/
def PrintfState.openFile (s : PrintfState) : PrintfState := { s with file := some (s.file.getD []) }

/-- `write` at a position of the file. -/
def PrintfState.write (s : PrintfState) (base pos start len : ℕ) : PrintfState :=
  { s.touch base start len with file := s.file.map (writeAt pos (bytesAt s.mem start len)) }

/-- The log of a buffer that was not rewound. -/
def PrintfState.printStraight (s : PrintfState) (base : ℕ) (redirect : Bool) : Option PrintfState :=
  let start := word64 (base + logHeaderSz)
  if redirect then some (s.write base 0 start (word64 (writeOffset s.mem base)))
  else s.printUntil base start (word64 (base + writeOffset s.mem base + logHeaderSz)) false

/-- The log of a buffer that was rewound: from the offset on, and then up to it. -/
def PrintfState.printRewound (s : PrintfState) (base : ℕ) (redirect : Bool) : Option PrintfState :=
  let start := word64 (base + logHeaderSz + writeOffset s.mem base)
  if redirect then
    let writeLen := word64 (bufferLen - logHeaderSz - writeOffset s.mem base)
    let s := s.write base 0 start writeLen
    some (if writeOffset s.mem base ≠ 0 then
      s.write base writeLen (word64 (base + logHeaderSz)) (word64 (writeOffset s.mem base)) else s)
  else
    match s.printUntil base start (word64 (base + bufferLen - 1)) true with
    | none => none
    | some s =>
      if writeOffset s.mem base ≠ 0 then
        s.printUntil base (word64 (base + logHeaderSz))
          (word64 (base + writeOffset s.mem base + logHeaderSz)) false
      else some s

/-- `aipu_printf` before it looks at the header. -/
def PrintfState.enter (s : PrintfState) (base : ℕ) (redirect : Bool) : PrintfState :=
  (if redirect then s.openFile else s).touch base base logHeaderSz

/-- `aipu_printf`; `redirect` says whether there is a `redirect_file`. -/
def PrintfState.aipuPrintf (s : PrintfState) (base : ℕ) (redirect : Bool) :
    Option (ℤ × PrintfState) :=
  let s := s.enter base redirect
  if overwriteFlag s.mem base = 0 ∧ writeOffset s.mem base ≠ 0 then
    (s.printStraight base redirect).map fun s => (writeOffset s.mem base, s)
  else if overwriteFlag s.mem base = 1 then
    (s.printRewound base redirect).map (bufferLen - logHeaderSz, ·)
  else some (0, s)

/-- `AIPU_printf` for the buffers of a list of tensors, given by their addresses. -/
def PrintfState.aipuPrintfAll (s : PrintfState) (redirect : Bool) :
    List ℕ → Option (AipuStatus × PrintfState)
  | [] => some (.success, s)
  | va :: vas =>
    if va = 0 then some (.errorNullPtr, s)
    else
      match s.aipuPrintf va redirect with
      | none => none
      | some (_, s) => s.aipuPrintfAll redirect vas

/-! ## Logs -/

/-- The log of a buffer, oldest byte first. -/
def printfLog (mem : Memory) (va : ℕ) : List UInt8 :=
  let n := (writeOffset mem va).toNat
  if overwriteFlag mem va = 1 then
    bytesAt mem (va + logHeaderSz + n) (bufferLen - logHeaderSz - n) ++
      bytesAt mem (va + logHeaderSz) n
  else bytesAt mem (va + logHeaderSz) n

/-- A buffer as a job leaves it: a header and a log without zeros.  A pointer behind the buffer does
not wrap. -/
structure LogBuffer (mem : Memory) (va : ℕ) : Prop where
  pos : 0 < va
  lt : va + bufferLen < 2 ^ 64
  flag : overwriteFlag mem va = 0 ∨ overwriteFlag mem va = 1
  nonneg : 0 ≤ writeOffset mem va
  offset_le : writeOffset mem va ≤ bufferLen - logHeaderSz
  log : 0 ∉ printfLog mem va

/-- The buffer has a log. -/
def HasLog (mem : Memory) (va : ℕ) : Prop := overwriteFlag mem va = 1 ∨ writeOffset mem va ≠ 0

instance hasLogDecidable (mem : Memory) :
    DecidablePred (HasLog mem) := fun _ => inferInstanceAs (Decidable (_ ∨ _))

/-- The bytes lie in the buffer. -/
def PrintfAccess.Inside (a : PrintfAccess) :
    Prop := a.buffer ≤ a.addr ∧ a.addr + a.len ≤ a.buffer + bufferLen

/-- A call of `AIPU_printf` outputs the logs of the buffers in their order, stays inside the buffers
and leaves them as they were; there is no file before it. -/
def PrintsLogs (mem : Memory) (vas : List ℕ) (redirect : Bool)
    (output : PrintfState → List UInt8) : Prop :=
  ∃ s, ({ mem := mem } : PrintfState).aipuPrintfAll redirect vas = some (.success, s) ∧
    output s = vas.flatMap (printfLog mem) ∧ (∀ a ∈ s.accesses, a.Inside) ∧ s.mem = mem

variable {mem : Memory} {s s' : PrintfState} {base va start endPos n : ℕ} {last redirect : Bool}

/-! ## Steps -/

/-- A pointer or a length that does not wrap. -/
theorem word64_natCast (h : n < 2 ^ 64) : word64 n = n := by
  unfold word64
  omega

/-- A string that is printed with a zero behind it: the memory is as before. -/
theorem PrintfState.printUntil_eq (hend : start + n < 2 ^ 64) (hbytes : 0 ∉ bytesAt s.mem start n) :
    s.printUntil base start (start + n) last = some { s with
      terminal := s.terminal ++ bytesAt s.mem start n ++ (if last then [s.mem (start + n)] else [])
      accesses := s.accesses ++
        [⟨base, start + n, 1⟩, ⟨base, start, n + 1⟩, ⟨base, start + n, 1⟩] } := by
  have hupdate : bytesAt (Function.update s.mem (start + n) 0) start n =
      bytesAt s.mem start n := bytesAt_update le_rfl
  have hstring : cString (Function.update s.mem (start + n) 0) start (2 ^ 64 - start) =
      some (bytesAt s.mem start n) := by
    rw [← hupdate]
    exact cString_eq (by omega) (hupdate ▸ hbytes) (Function.update_self _ _ _)
  simp only [PrintfState.printUntil, PrintfState.printString, PrintfState.store,
    PrintfState.touch, hstring, Option.map_some, length_bytesAt]
  cases last <;> simp [PrintfState.putchar, Function.update_idem, Function.update_eq_self]

/-- What printing a string accesses. -/
theorem PrintfState.printUntil_accesses (h : s.printUntil base start endPos last = some s') :
    s.accesses ⊆ s'.accesses ∧ ⟨base, endPos, 1⟩ ∈ s'.accesses ∧
      ∃ len, ⟨base, start, len + 1⟩ ∈ s'.accesses := by
  obtain ⟨s₁, hprint, rfl⟩ := Option.map_eq_some_iff.mp h
  obtain ⟨bytes, -, rfl⟩ := Option.map_eq_some_iff.mp hprint
  refine ⟨fun a ha => ?_, ?_, bytes.length, ?_⟩ <;> cases last <;>
    simp_all [PrintfState.store, PrintfState.touch, PrintfState.putchar]

/-- Printing a log that was not rewound forgets no access. -/
theorem PrintfState.printStraight_accesses (h : s.printStraight base redirect = some s') :
    s.accesses ⊆ s'.accesses := by
  simp only [PrintfState.printStraight] at h
  split at h
  · obtain rfl := Option.some.inj h
    simp [PrintfState.write, PrintfState.touch]
  · exact (PrintfState.printUntil_accesses h).1

/-- Printing a log that was rewound forgets no access. -/
theorem PrintfState.printRewound_accesses (h : s.printRewound base redirect = some s') :
    s.accesses ⊆ s'.accesses := by
  simp only [PrintfState.printRewound] at h
  split at h
  · obtain rfl := Option.some.inj h
    split <;> simp [PrintfState.write, PrintfState.touch]
  · split at h
    next => cases h
    next s₁ hs₁ =>
      have hfirst := (PrintfState.printUntil_accesses hs₁).1
      split at h
      · exact List.Subset.trans hfirst (PrintfState.printUntil_accesses h).1
      · rwa [← Option.some.inj h]

/-- `aipu_printf` begins without forgetting an access. -/
theorem PrintfState.enter_accesses (s : PrintfState) (base : ℕ) (redirect : Bool) :
    s.accesses ⊆ (s.enter base redirect).accesses := by
  cases redirect <;> simp [PrintfState.enter, PrintfState.touch, PrintfState.openFile]

/-- The dump of one buffer forgets no access. -/
theorem PrintfState.aipuPrintf_accesses {ret : ℤ}
    (h : s.aipuPrintf base redirect = some (ret, s')) :
    s.accesses ⊆ s'.accesses := by
  refine List.Subset.trans (s.enter_accesses base redirect) ?_
  simp only [PrintfState.aipuPrintf] at h
  split at h
  · obtain ⟨s₁, hs₁, heq⟩ := Option.map_eq_some_iff.mp h
    obtain ⟨-, rfl⟩ := Prod.mk.inj heq
    exact PrintfState.printStraight_accesses hs₁
  · split at h
    · obtain ⟨s₁, hs₁, heq⟩ := Option.map_eq_some_iff.mp h
      obtain ⟨-, rfl⟩ := Prod.mk.inj heq
      exact PrintfState.printRewound_accesses hs₁
    · obtain ⟨-, rfl⟩ := Prod.mk.inj (Option.some.inj h)
      exact List.Subset.refl _

/-- The dump of several buffers forgets no access. -/
theorem PrintfState.aipuPrintfAll_accesses {vas : List ℕ} {ret : AipuStatus}
    (h : s.aipuPrintfAll redirect vas = some (ret, s')) : s.accesses ⊆ s'.accesses := by
  induction vas generalizing s with
  | nil =>
    obtain ⟨-, rfl⟩ := Prod.mk.inj (Option.some.inj h)
    exact List.Subset.refl _
  | cons va vas ih =>
    rw [PrintfState.aipuPrintfAll] at h
    split at h
    · obtain ⟨-, rfl⟩ := Prod.mk.inj (Option.some.inj h)
      exact List.Subset.refl _
    · split at h
      next => cases h
      next hone => exact List.Subset.trans (PrintfState.aipuPrintf_accesses hone) (ih h)

/-! ## One buffer -/

/-- The output of a dump to the terminal, with accesses inside the buffer. -/
def PrintfState.Prints (s : PrintfState) (bytes : List UInt8) (s' : PrintfState) : Prop :=
  ∃ accs, s' = { s with terminal := s.terminal ++ bytes, accesses := s.accesses ++ accs } ∧
    ∀ a ∈ accs, a.Inside

/-- The output of a dump to the file, with accesses inside the buffer. -/
def PrintfState.Writes (s : PrintfState) (bytes : List UInt8) (s' : PrintfState) : Prop :=
  ∃ accs, s' =
    { s with file := some (writeAt 0 bytes (s.file.getD [])), accesses := s.accesses ++ accs } ∧
    ∀ a ∈ accs, a.Inside

/-- The offset of a buffer as a natural number. -/
theorem LogBuffer.exists_offset (h : LogBuffer mem va) :
    ∃ n : ℕ, writeOffset mem va = n ∧ n + logHeaderSz ≤ bufferLen := by
  obtain ⟨n, hn⟩ := Int.eq_ofNat_of_zero_le h.nonneg
  refine ⟨n, hn, ?_⟩
  have := h.offset_le
  simp only [bufferLen, logHeaderSz] at *
  omega

/-- A string inside the buffer that ends before its end is printed. -/
theorem PrintfState.printUntil_prints {off : ℕ} (hva : va + bufferLen < 2 ^ 64)
    (hend : off + n < bufferLen)
    (hbytes : 0 ∉ bytesAt s.mem (va + off) n) :
    ∃ s', s.printUntil va (va + off) (va + off + n) last = some s' ∧
      s.Prints (bytesAt s.mem (va + off) n ++ if last then [s.mem (va + off + n)] else []) s' := by
  refine ⟨_, PrintfState.printUntil_eq (by omega) hbytes, _, by rw [← List.append_assoc],
    fun a ha => ?_⟩
  simp only [List.mem_cons, List.not_mem_nil, or_false] at ha
  rcases ha with rfl | rfl | rfl <;> constructor <;> simp only <;> omega

/-- One output after another. -/
theorem PrintfState.Prints.trans {xs ys : List UInt8} {s'' : PrintfState} (h : s.Prints xs s')
    (h' : s'.Prints ys s'') : s.Prints (xs ++ ys) s'' := by
  obtain ⟨accs, rfl, haccs⟩ := h
  obtain ⟨accs', rfl, haccs'⟩ := h'
  refine ⟨accs ++ accs', by simp, fun a ha => ?_⟩
  exact (List.mem_append.mp ha).elim (haccs a) (haccs' a)

/-- A dump to the terminal leaves the memory as it is. -/
theorem PrintfState.Prints.mem_eq {bytes : List UInt8} (h : s.Prints bytes s') :
    s'.mem = s.mem := by
  obtain ⟨_, rfl, -⟩ := h
  rfl

section Offset

variable (hva : va + bufferLen < 2 ^ 64) (hn : writeOffset s.mem va = n)

include hva hn

/-- A log that was not rewound, on the terminal. -/
theorem PrintfState.printStraight_prints (hlt : n + logHeaderSz < bufferLen)
    (hbytes : 0 ∉ bytesAt s.mem (va + logHeaderSz) n) :
    ∃ s', s.printStraight va false = some s' ∧
      s.Prints (bytesAt s.mem (va + logHeaderSz) n) s' := by
  have hstart : word64 (va + logHeaderSz) = va + logHeaderSz := by
    simp only [word64, logHeaderSz, bufferLen] at *
    omega
  have hend : word64 (va + n + logHeaderSz) = va + logHeaderSz + n := by
    simp only [word64, logHeaderSz, bufferLen] at *
    omega
  obtain ⟨s', hs', hprints⟩ :=
    @PrintfState.printUntil_prints s va n false logHeaderSz hva (by omega) hbytes
  refine ⟨s', ?_, by simpa using hprints⟩
  simpa [PrintfState.printStraight, hn, hstart, hend] using hs'

/-- A log that was rewound, on the terminal. -/
theorem PrintfState.printRewound_prints (hlt : n + logHeaderSz < bufferLen)
    (hold : 0 ∉ bytesAt s.mem (va + logHeaderSz + n) (bufferLen - logHeaderSz - n))
    (hnew : 0 ∉ bytesAt s.mem (va + logHeaderSz) n) :
    ∃ s', s.printRewound va false = some s' ∧ s.Prints (bytesAt s.mem (va + logHeaderSz + n)
      (bufferLen - logHeaderSz - n) ++ bytesAt s.mem (va + logHeaderSz) n) s' := by
  obtain ⟨k, hk⟩ : ∃ k, bufferLen - logHeaderSz - n = k + 1 :=
    ⟨bufferLen - logHeaderSz - n - 1, by omega⟩
  have hstart : word64 (va + logHeaderSz + n) = va + (logHeaderSz + n) := by
    simp only [word64, logHeaderSz, bufferLen] at *
    omega
  have hend : word64 (va + bufferLen - 1) = va + (logHeaderSz + n) + k := by
    simp only [word64, logHeaderSz, bufferLen] at *
    omega
  -- the last byte is printed by `putchar`
  have hlast : bytesAt s.mem (va + logHeaderSz + n) (bufferLen - logHeaderSz - n) =
      bytesAt s.mem (va + (logHeaderSz + n)) k ++ [s.mem (va + (logHeaderSz + n) + k)] := by
    rw [hk, bytesAt_add, Nat.add_assoc]
    rfl
  rw [hlast, List.mem_append, not_or] at hold
  obtain ⟨s₁, hs₁, hprints₁⟩ :=
    @PrintfState.printUntil_prints s va k true (logHeaderSz + n) hva (by omega) hold.1
  rw [if_pos rfl, ← hlast] at hprints₁
  have hmem := hprints₁.mem_eq
  by_cases h0 : n = 0
  · subst h0
    refine ⟨s₁, ?_, by simpa using hprints₁⟩
    have hzero : ¬((0 : ℕ) : ℤ) ≠ 0 := by decide
    simp only [PrintfState.printRewound, hn, hstart, hend, Bool.false_eq_true, if_false, hs₁, hmem,
      if_neg hzero]
  · obtain ⟨s₂, hs₂, hprints₂⟩ := PrintfState.printStraight_prints hva (hmem ▸ hn) hlt (hmem ▸ hnew)
    refine ⟨s₂, ?_, by simpa [hmem] using hprints₁.trans hprints₂⟩
    have hne : (n : ℤ) ≠ 0 := by exact_mod_cast h0
    simp only [PrintfState.printRewound, hn, hstart, hend, Bool.false_eq_true, if_false, hs₁,
      hmem, if_pos hne]
    simpa [PrintfState.printStraight, hmem, hn] using hs₂

end Offset

/-- A log that ends before the end of its buffer is printed. -/
theorem LogBuffer.aipuPrintf_terminal (h : LogBuffer s.mem va)
    (hlt : writeOffset s.mem va < bufferLen - logHeaderSz) :
    ∃ ret s', s.aipuPrintf va false = some (ret, s') ∧ s.Prints (printfLog s.mem va) s' := by
  obtain ⟨n, hn, -⟩ := h.exists_offset
  have hva := h.lt
  have hlog := h.log
  have hnlt : n + logHeaderSz < bufferLen := by
    simp only [hn, logHeaderSz, bufferLen] at *
    omega
  have henter : s.Prints [] (s.enter va false) := by
    refine ⟨[⟨va, va, logHeaderSz⟩], by simp [PrintfState.enter, PrintfState.touch], fun a ha => ?_⟩
    obtain rfl := List.mem_singleton.mp ha
    exact ⟨le_rfl, by simp [logHeaderSz, bufferLen]⟩
  have hmem : (s.enter va false).mem = s.mem := rfl
  simp only [PrintfState.aipuPrintf, printfLog, hmem, hn, Int.toNat_natCast] at hlog ⊢
  rcases h.flag with hflag | hflag
  · have hne : ¬(0 : ℤ) = 1 := by decide
    simp only [hflag, if_neg hne, true_and] at hlog ⊢
    split
    next =>
      obtain ⟨s', hs', hprints⟩ :=
        @PrintfState.printStraight_prints (s.enter va false) va n hva hn hnlt hlog
      exact ⟨_, s', by rw [hs', Option.map_some], by simpa [hmem] using henter.trans hprints⟩
    next h0 =>
      obtain rfl : n = 0 := by simpa using h0
      exact ⟨_, _, rfl, henter⟩
  · have hne : ¬(1 : ℤ) = 0 := by decide
    simp only [hflag, hne, false_and, if_false, if_true, List.mem_append, not_or] at hlog ⊢
    obtain ⟨s', hs', hprints⟩ :=
      @PrintfState.printRewound_prints (s.enter va false) va n hva hn hnlt hlog.1 hlog.2
    exact ⟨_, s', by rw [hs', Option.map_some], by simpa [hmem] using henter.trans hprints⟩

/-- A log that ends where its buffer does is not printed inside the buffer. -/
theorem LogBuffer.aipuPrintf_outside (h : LogBuffer s.mem va)
    (hge : bufferLen - logHeaderSz ≤ writeOffset s.mem va) {ret : ℤ}
    (hprint : s.aipuPrintf va false = some (ret, s')) : ∃ a ∈ s'.accesses, ¬a.Inside := by
  have hva := h.lt
  have hoff := h.offset_le
  have hoffset : writeOffset s.mem va = 2 ^ 20 - 8 := by
    simp only [bufferLen, logHeaderSz] at *
    omega
  -- the address behind the buffer
  have hbehind : ∀ (p : ℤ) (len : ℕ), p = va + 2 ^ 20 →
      ¬PrintfAccess.Inside ⟨va, word64 p, len + 1⟩ := by
    rintro p len rfl ⟨hlow, hhigh⟩
    simp only [word64, bufferLen] at *
    omega
  have hmem : (s.enter va false).mem = s.mem := rfl
  simp only [PrintfState.aipuPrintf, hmem] at hprint
  split at hprint
  · obtain ⟨s₁, hs₁, heq⟩ := Option.map_eq_some_iff.mp hprint
    obtain ⟨-, rfl⟩ := Prod.mk.inj heq
    simp only [PrintfState.printStraight, Bool.false_eq_true, if_false] at hs₁
    exact ⟨_, (PrintfState.printUntil_accesses hs₁).2.1,
      hbehind (va + writeOffset s.mem va + logHeaderSz) 0 (by rw [hoffset, logHeaderSz]; omega)⟩
  · split at hprint
    · obtain ⟨s₁, hs₁, heq⟩ := Option.map_eq_some_iff.mp hprint
      obtain ⟨-, rfl⟩ := Prod.mk.inj heq
      simp only [PrintfState.printRewound, Bool.false_eq_true, if_false] at hs₁
      split at hs₁
      next => cases hs₁
      next s₂ hs₂ =>
        obtain ⟨len, hlen⟩ := (PrintfState.printUntil_accesses hs₂).2.2
        refine ⟨_, ?_, hbehind (va + logHeaderSz + writeOffset s.mem va) len
          (by rw [hoffset, logHeaderSz]; omega)⟩
        split at hs₁
        · exact (PrintfState.printUntil_accesses hs₁).1 hlen
        · rwa [← Option.some.inj hs₁]
    · rcases h.flag with hflag | hflag
      · exact absurd ⟨hflag, by simp [hoffset]⟩ ‹¬(_ ∧ _)›
      · contradiction

/-- What is written after the file was opened. -/
theorem PrintfState.Writes.of_enter {bytes : List UInt8} (h : (s.enter va true).Writes bytes s') :
    s.Writes bytes s' := by
  obtain ⟨accs, rfl, haccs⟩ := h
  refine ⟨⟨va, va, logHeaderSz⟩ :: accs,
    by simp [PrintfState.enter, PrintfState.touch, PrintfState.openFile], ?_⟩
  intro a ha
  rcases List.mem_cons.mp ha with rfl | ha
  · exact ⟨le_rfl, by simp [logHeaderSz, bufferLen]⟩
  · exact haccs a ha

section Offset

variable {c : List UInt8} (hfile : s.file = some c) (hva : va + bufferLen < 2 ^ 64)
  (hn : writeOffset s.mem va = n) (hle : n + logHeaderSz ≤ bufferLen)

include hfile hva hn hle

/-- A log that was not rewound, in the file. -/
theorem PrintfState.printStraight_writes :
    ∃ s', s.printStraight va true = some s' ∧ s.Writes (bytesAt s.mem (va + logHeaderSz) n) s' := by
  have hstart : word64 (va + logHeaderSz) = va + logHeaderSz := by
    simp only [word64, logHeaderSz, bufferLen] at *
    omega
  have hlen : word64 n = n := word64_natCast (by simp only [bufferLen] at *; omega)
  refine ⟨_, rfl, [⟨va, va + logHeaderSz, n⟩], ?_, fun a ha => ?_⟩
  · simp [PrintfState.write, PrintfState.touch, hn, hstart, hlen, hfile]
  · obtain rfl := List.mem_singleton.mp ha
    exact ⟨Nat.le_add_right _ _, by simp only; omega⟩

/-- A log that was rewound, in the file. -/
theorem PrintfState.printRewound_writes : ∃ s', s.printRewound va true = some s' ∧
    s.Writes (bytesAt s.mem (va + logHeaderSz + n) (bufferLen - logHeaderSz - n) ++
      bytesAt s.mem (va + logHeaderSz) n) s' := by
  have hstart : word64 (va + logHeaderSz + n) = va + logHeaderSz + n := by
    simp only [word64, logHeaderSz, bufferLen] at *
    omega
  have hfirst : word64 (bufferLen - logHeaderSz - n) = bufferLen - logHeaderSz - n := by
    simp only [word64, logHeaderSz, bufferLen] at *
    omega
  have hwrite : s.write va 0 (va + logHeaderSz + n) (bufferLen - logHeaderSz - n) = { s with
      file := some
        (writeAt 0 (bytesAt s.mem (va + logHeaderSz + n) (bufferLen - logHeaderSz - n)) c)
      accesses := s.accesses ++ [⟨va, va + logHeaderSz + n, bufferLen - logHeaderSz - n⟩] } := by
    simp [PrintfState.write, PrintfState.touch, hfile]
  have hinside : PrintfAccess.Inside ⟨va, va + logHeaderSz + n, bufferLen - logHeaderSz - n⟩ :=
    ⟨by simp only; omega, by simp only; omega⟩
  by_cases h0 : n = 0
  · subst h0
    have hzero : ¬((0 : ℕ) : ℤ) ≠ 0 := by decide
    refine ⟨_, rfl, [⟨va, va + logHeaderSz + 0, bufferLen - logHeaderSz - 0⟩], ?_, fun a ha => ?_⟩
    · simp only [hn, hstart, hfirst, hwrite, if_neg hzero, bytesAt_zero, List.append_nil, hfile,
        Option.getD_some]
    · exact List.mem_singleton.mp ha ▸ hinside
  · have hne : (n : ℤ) ≠ 0 := by exact_mod_cast h0
    have hlen : word64 n = n := word64_natCast (by simp only [bufferLen] at *; omega)
    have hheader : word64 (va + logHeaderSz) = va + logHeaderSz := by
      simp only [word64, logHeaderSz, bufferLen] at *
      omega
    refine ⟨_, rfl,
      [⟨va, va + logHeaderSz + n, bufferLen - logHeaderSz - n⟩, ⟨va, va + logHeaderSz, n⟩], ?_,
      fun a ha => ?_⟩
    · have happend :=
        writeAt_writeAt (bytesAt s.mem (va + logHeaderSz + n) (bufferLen - logHeaderSz - n))
        (bytesAt s.mem (va + logHeaderSz) n) c
      rw [length_bytesAt] at happend
      simp only [hn, hstart, hfirst, hwrite, if_pos hne]
      simp [PrintfState.write, PrintfState.touch, hlen, hheader, happend, hfile]
    · rcases List.mem_cons.mp ha with rfl | ha
      · exact hinside
      · obtain rfl := List.mem_singleton.mp ha
        exact ⟨Nat.le_add_right _ _, by simp only; omega⟩

end Offset

/-- Every log is written to the file, at its start. -/
theorem LogBuffer.aipuPrintf_file (h : LogBuffer s.mem va) :
    ∃ ret s', s.aipuPrintf va true = some (ret, s') ∧ s.Writes (printfLog s.mem va) s' := by
  obtain ⟨n, hn, hle⟩ := h.exists_offset
  have hva := h.lt
  have hmem : (s.enter va true).mem = s.mem := rfl
  have hfile : (s.enter va true).file = some (s.file.getD []) := rfl
  simp only [PrintfState.aipuPrintf, printfLog, hmem, hn, Int.toNat_natCast]
  rcases h.flag with hflag | hflag
  · have hne : ¬(0 : ℤ) = 1 := by decide
    simp only [hflag, if_neg hne, true_and]
    split
    next =>
      obtain ⟨s', hs', hwrites⟩ := PrintfState.printStraight_writes hfile hva hn hle
      exact ⟨_, s', by rw [hs', Option.map_some], hwrites.of_enter⟩
    next h0 =>
      obtain rfl : n = 0 := by simpa using h0
      have hempty : (s.enter va true).Writes [] (s.enter va true) := by
        refine ⟨[], ?_, by simp⟩
        simp only [writeAt_zero, hfile, Option.getD_some, List.nil_append, List.length_nil,
          List.drop_zero, List.append_nil]
        rfl
      exact ⟨_, _, rfl, hempty.of_enter⟩
  · have hne : ¬(1 : ℤ) = 0 := by decide
    simp only [hflag, hne, false_and, if_false, if_true]
    obtain ⟨s', hs', hwrites⟩ := PrintfState.printRewound_writes hfile hva hn hle
    exact ⟨_, s', by rw [hs', Option.map_some], hwrites.of_enter⟩

/-! ## All buffers -/

section All

variable {vas : List ℕ} (h : ∀ va ∈ vas, LogBuffer s.mem va)

include h

/-- The logs are printed one after the other. -/
theorem PrintfState.aipuPrintfAll_terminal
    (hlt : ∀ va ∈ vas, writeOffset s.mem va < bufferLen - logHeaderSz) :
    ∃ s', s.aipuPrintfAll false vas = some (.success, s') ∧
      s.Prints (vas.flatMap (printfLog s.mem)) s' := by
  induction vas generalizing s with
  | nil => exact ⟨s, rfl, [], by simp, by simp⟩
  | cons va vas ih =>
    have hva := h va List.mem_cons_self
    obtain ⟨ret, s₁, hs₁, hprints₁⟩ := hva.aipuPrintf_terminal (hlt va List.mem_cons_self)
    have hmem := hprints₁.mem_eq
    obtain ⟨s₂, hs₂, hprints₂⟩ :=
      @ih s₁ (fun va' hva' => hmem ▸ h va' (List.mem_cons_of_mem _ hva'))
      fun va' hva' => hmem ▸ hlt va' (List.mem_cons_of_mem _ hva')
    refine ⟨s₂, ?_, by simpa [hmem] using hprints₁.trans hprints₂⟩
    simp only [PrintfState.aipuPrintfAll, if_neg hva.pos.ne', hs₁, hs₂]

/-- When all bytes that the terminal path accesses lie in their buffers, no log ends where its
buffer does. -/
theorem PrintfState.offset_lt_of_inside {ret : AipuStatus}
    (hprint : s.aipuPrintfAll false vas = some (ret, s'))
    (hinside : ∀ a ∈ s'.accesses, a.Inside) :
    ∀ va ∈ vas, writeOffset s.mem va < bufferLen - logHeaderSz := by
  induction vas generalizing s with
  | nil => simp
  | cons va vas ih =>
    have hva := h va List.mem_cons_self
    rw [PrintfState.aipuPrintfAll, if_neg hva.pos.ne'] at hprint
    split at hprint
    next => cases hprint
    next ret₁ s₁ hs₁ =>
      have hlt : writeOffset s.mem va < bufferLen - logHeaderSz := by
        by_contra hge
        obtain ⟨a, ha, houtside⟩ := hva.aipuPrintf_outside (Int.not_lt.mp hge) hs₁
        exact houtside (hinside a (PrintfState.aipuPrintfAll_accesses hprint ha))
      obtain ⟨ret₂, s₂, hs₂, hprints⟩ := hva.aipuPrintf_terminal hlt
      obtain ⟨-, rfl⟩ := Prod.mk.inj (Option.some.inj (hs₁.symm.trans hs₂))
      have hmem := hprints.mem_eq
      have hrest := ih (fun va' hva' => hmem ▸ h va' (List.mem_cons_of_mem _ hva')) hprint
      intro va' hva'
      rcases List.mem_cons.mp hva' with rfl | hva'
      · exact hlt
      · exact hmem ▸ hrest va' hva'

/-- The logs are written over each other. -/
theorem PrintfState.aipuPrintfAll_file :
    ∃ s', s.aipuPrintfAll true vas = some (.success, s') ∧ s'.mem = s.mem ∧
    (∀ a ∈ s'.accesses, a ∈ s.accesses ∨ a.Inside) ∧ s'.file.getD [] =
      (vas.map (printfLog s.mem)).foldl (fun content log => writeAt 0 log content)
        (s.file.getD []) := by
  induction vas generalizing s with
  | nil => exact ⟨s, rfl, rfl, fun a ha => .inl ha, rfl⟩
  | cons va vas ih =>
    have hva := h va List.mem_cons_self
    obtain ⟨ret, s₁, hs₁, accs, heq, haccs⟩ := hva.aipuPrintf_file
    have hmem₁ : s₁.mem = s.mem := by rw [heq]
    have haccs₁ : s₁.accesses = s.accesses ++ accs := by rw [heq]
    have hfile₁ : s₁.file.getD [] = writeAt 0 (printfLog s.mem va) (s.file.getD []) := by
      rw [heq, Option.getD_some]
    obtain ⟨s₂, hs₂, hmem, hinside, hfile⟩ :=
      @ih s₁ fun va' hva' => hmem₁ ▸ h va' (List.mem_cons_of_mem _ hva')
    refine ⟨s₂, ?_, hmem.trans hmem₁, fun a ha => ?_, ?_⟩
    · simp only [PrintfState.aipuPrintfAll, if_neg hva.pos.ne', hs₁, hs₂]
    · rcases hinside a ha with ha | ha
      · rw [haccs₁] at ha
        exact (List.mem_append.mp ha).imp_right (haccs a)
      · exact .inr ha
    · rw [hfile, hmem₁, hfile₁, List.map_cons, List.foldl_cons]

end All

/-- A buffer without log has no bytes to print. -/
theorem LogBuffer.printfLog_ne_nil (h : LogBuffer mem va) :
    printfLog mem va ≠ [] ↔ HasLog mem va := by
  obtain ⟨n, hn, hle⟩ := h.exists_offset
  simp only [printfLog, HasLog, hn, Int.toNat_natCast, ← List.length_pos_iff]
  split
  next hflag =>
    refine iff_of_true ?_ (.inl hflag)
    rw [List.length_append, length_bytesAt, length_bytesAt]
    simp only [bufferLen, logHeaderSz] at *
    omega
  next hflag =>
    rw [length_bytesAt]
    omega

/-- The terminal and the file get the same logs, without an access outside of the buffers, exactly
when no log ends where its buffer does and at most one buffer has a log. -/
theorem aipuPrintf_agrees_iff {vas : List ℕ} (h : ∀ va ∈ vas, LogBuffer mem va) :
    PrintsLogs mem vas false (·.terminal) ∧ PrintsLogs mem vas true (·.file.getD []) ↔
      (∀ va ∈ vas, writeOffset mem va < bufferLen - logHeaderSz) ∧
        (vas.filter (HasLog mem)).length ≤ 1 := by
  obtain ⟨s, hs, hmem, hinside, hfile⟩ := @PrintfState.aipuPrintfAll_file { mem := mem } vas h
  have hcount : ((vas.map (printfLog mem)).filter (· ≠ [])).length =
      (vas.filter (HasLog mem)).length := by
    rw [List.filter_map, List.length_map]
    exact congrArg List.length
      (List.filter_congr fun va hva => decide_eq_decide.mpr (h va hva).printfLog_ne_nil)
  have hwritten : s.file.getD [] = vas.flatMap (printfLog mem) ↔
      (vas.filter (HasLog mem)).length ≤ 1 := by
    rw [hfile, Option.getD_none, ← hcount, List.flatMap_def]
    exact foldl_writeAt_eq_flatten
  constructor
  · rintro ⟨hterminal, hredirect⟩
    obtain ⟨t, ht, -, htinside, -⟩ := hterminal
    obtain ⟨s', hs', hlogs, -, -⟩ := hredirect
    obtain ⟨-, rfl⟩ := Prod.mk.inj (Option.some.inj (hs.symm.trans hs'))
    exact ⟨@PrintfState.offset_lt_of_inside { mem := mem } t vas h .success ht htinside,
      hwritten.mp hlogs⟩
  · rintro ⟨hlt, hone⟩
    obtain ⟨t, ht, accs, rfl, haccs⟩ := @PrintfState.aipuPrintfAll_terminal { mem := mem } vas h hlt
    refine ⟨⟨_, ht, by simp, by simpa using haccs, rfl⟩, s, hs, hwritten.mpr hone,
      fun a ha => ?_, hmem⟩
    exact (hinside a ha).resolve_left (by simp)

/-- Two buffers, one behind the other, with these offsets in their headers; all other bytes are
`a`. -/
def sampleLogs (first second : UInt32) : Memory := fun p =>
  if p < 4096 + logHeaderSz then Memory.ofBytes 4096 (wordBytes 0 ++ wordBytes first) p
  else if 1052672 ≤ p ∧ p < 1052672 + logHeaderSz then
    Memory.ofBytes 1052672 (wordBytes 0 ++ wordBytes second) p
  else 97

/-- The logs of the sample have no zeros. -/
theorem sampleLogs_logBuffer {first second : UInt32} (hva : va = 4096 ∨ va = 1052672)
    (hflag : overwriteFlag (sampleLogs first second) va = 0)
    (h0 : 0 ≤ writeOffset (sampleLogs first second) va)
    (hle : writeOffset (sampleLogs first second) va ≤ bufferLen - logHeaderSz) :
    LogBuffer (sampleLogs first second) va := by
  refine ⟨by omega, by simp only [bufferLen]; omega, .inl hflag, h0, hle, fun hlog => ?_⟩
  rw [printfLog, hflag, if_neg (by decide)] at hlog
  obtain ⟨i, hi, hbyte⟩ := List.mem_map.mp hlog
  have hlt := List.mem_range.mp hi
  simp only [bufferLen, logHeaderSz] at hle
  rw [sampleLogs, if_neg (by simp only [logHeaderSz]; omega),
    if_neg (by simp only [logHeaderSz]; omega)] at hbyte
  exact absurd hbyte (by decide)

/-- Only the first buffer has a log, of two bytes. -/
theorem aipuPrintf_agrees_iff_sample :
    PrintsLogs (sampleLogs 2 0) [4096, 1052672] false (·.terminal) ∧
      PrintsLogs (sampleLogs 2 0) [4096, 1052672] true (·.file.getD []) ∧
      [4096, 1052672].flatMap (printfLog (sampleLogs 2 0)) = [97, 97] := by
  have hbuffers : ∀ va ∈ [4096, 1052672], LogBuffer (sampleLogs 2 0) va := by
    intro va hva
    simp only [List.mem_cons, List.not_mem_nil, or_false] at hva
    rcases hva with rfl | rfl
    · exact sampleLogs_logBuffer (.inl rfl) (by decide) (by decide) (by decide)
    · exact sampleLogs_logBuffer (.inr rfl) (by decide) (by decide) (by decide)
  obtain ⟨hterminal, hfile⟩ := (aipuPrintf_agrees_iff hbuffers).mpr (by decide)
  exact ⟨hterminal, hfile, by decide⟩

/-- A log that fills its buffer is not printed inside it; of two logs that are written to the file
the first one is lost. -/
theorem aipuPrintf_disagrees :
    (LogBuffer (sampleLogs 1048568 0) 4096 ∧
      ¬PrintsLogs (sampleLogs 1048568 0) [4096] false (·.terminal)) ∧
      (∀ va ∈ [4096, 1052672], LogBuffer (sampleLogs 2 1) va) ∧
      PrintsLogs (sampleLogs 2 1) [4096, 1052672] false (·.terminal) ∧
      ¬PrintsLogs (sampleLogs 2 1) [4096, 1052672] true (·.file.getD []) := by
  have hfull : LogBuffer (sampleLogs 1048568 0) 4096 :=
    sampleLogs_logBuffer (.inl rfl) (by decide) (by decide) (by decide)
  have hbuffers : ∀ va ∈ [4096, 1052672], LogBuffer (sampleLogs 2 1) va := by
    intro va hva
    simp only [List.mem_cons, List.not_mem_nil, or_false] at hva
    rcases hva with rfl | rfl
    · exact sampleLogs_logBuffer (.inl rfl) (by decide) (by decide) (by decide)
    · exact sampleLogs_logBuffer (.inr rfl) (by decide) (by decide) (by decide)
  refine ⟨⟨hfull, ?_⟩, hbuffers, ?_, ?_⟩
  · rintro ⟨s, hs, -, hinside, -⟩
    have hone : ∀ va ∈ [4096], LogBuffer (sampleLogs 1048568 0) va :=
      fun va hva => List.mem_singleton.mp hva ▸ hfull
    have hlt := @PrintfState.offset_lt_of_inside
      { mem := sampleLogs 1048568 0 } s _ hone _ hs hinside 4096
      List.mem_cons_self
    exact absurd hlt (by decide)
  · obtain ⟨t, ht, accs, rfl, haccs⟩ :=
      @PrintfState.aipuPrintfAll_terminal { mem := sampleLogs 2 1 } _ hbuffers
      (by decide)
    exact ⟨_, ht, by simp, by simpa using haccs, rfl⟩
  · rintro ⟨s, hs, hlogs, -, -⟩
    obtain ⟨s', hs', -, -, hfile⟩ :=
      @PrintfState.aipuPrintfAll_file { mem := sampleLogs 2 1 } _ hbuffers
    obtain ⟨-, rfl⟩ := Prod.mk.inj (Option.some.inj (hs.symm.trans hs'))
    exact absurd (hfile.symm.trans hlogs) (by decide)

end Aipu
