import AipuDriver.Umd.AsidAddresses
import AipuDriver.Umd.BuildWrites

/-!
# The registers of the address space extensions

With ASID `zhouyi_v2_trigger` gives the start of the program, its interrupt handler, the rodata and
the stack relative to the lowest of them, `ase0_start`.  Of the base of ASE 0 it writes only the
high word: the low word is always zero, while ASE 1 and ASE 2 get both words.  So the four addresses
are right only when the lowest one is a multiple of `2 ^ 32` (`ase_describes_iff`).  The lowest
address counts the text from its entry on, so that the interrupt handler and the text may be below
it, and a group without bytes is rounded up from zero: one without sections, or one whose request
was refused without an error code.
-/

namespace Aipu

open ByteReader Transition Word

/-! ## The property -/

/-- The four addresses that are relative to ASE 0. -/
def UserJobDesc.ase0Addrs (udesc : UserJobDesc) : List ℕ :=
  [udesc.startPcAddr, udesc.intrHandlerAddr, udesc.data0Addr, udesc.data1Addr]

/-- The arguments of `roundup_pow_of_two`. -/
def UserJobDesc.aseSizes (udesc : UserJobDesc) : List ℕ :=
  [wrapSub 64 udesc.ase0End udesc.ase0Start, udesc.staticSize, udesc.reuseSize]

/-- The buffers that ASE 0 is for. -/
def GraphObject.ase0Bufs (g : GraphObject) (tbuf : ThreadBufferInfo) : List BufferDesc :=
  [g.pbuf.text, tbuf.rodata, tbuf.stack]

/-- The base of ASE 0 and the registers of the job add up to its addresses; the start of the program
has its mode bits. -/
structure UserJobDesc.Reached (udesc : UserJobDesc) (writes : List RegWrite) : Prop where
  startPc : ∃ base, Ase.ase0.base writes = some base ∧
    lastWrite writes zhouyiStartPcRegOffset = some (udesc.ase0Addr udesc.startPcAddr ||| 0xD) ∧
    base + udesc.ase0Addr udesc.startPcAddr = udesc.startPcAddr
  intrHandler : Ase.ase0.Reaches writes zhouyiIntrPcRegOffset udesc.intrHandlerAddr
  data0 : Ase.ase0.Reaches writes zhouyiDataAddr0RegOffset udesc.data0Addr
  data1 : Ase.ase0.Reaches writes zhouyiDataAddr1RegOffset udesc.data1Addr

/-- The registers that are written for a job describe its memory: the addresses, the windows and
their sizes. -/
structure GraphObject.AseDescribes (g : GraphObject) (tbuf : ThreadBufferInfo) (udesc : UserJobDesc)
    (writes : List RegWrite) : Prop where
  reached : udesc.Reached writes
  noUnderflow : ∀ addr ∈ udesc.ase0Addrs, udesc.ase0Start ≤ addr
  ase0 : ∀ buf ∈ g.ase0Bufs tbuf, Ase.ase0.Covers writes (g.host2dev buf.pa) buf.size
  ase1 : Ase.ase1.Covers writes (g.host2dev g.pbuf.staticGroup.pa) g.pbuf.staticGroup.size
  ase2 : Ase.ase2.Covers writes (g.host2dev tbuf.reuseGroup.pa) tbuf.reuseGroup.size
  rounded : ∀ size ∈ udesc.aseSizes, size ≠ 0

/-- The offset of the shared memory can be taken from the addresses of the buffers for ASE 0, which
end below `2 ^ 63` and lie within 4 GiB. -/
structure GraphObject.Ase0Regular (g : GraphObject) (tbuf : ThreadBufferInfo) : Prop where
  host2dev : ∀ buf ∈ g.ase0Bufs tbuf, g.shmOffset ≤ buf.pa
  physical : ∀ buf ∈ g.ase0Bufs tbuf, buf.pa + buf.size ≤ 2 ^ 63
  near : ∀ buf ∈ g.ase0Bufs tbuf, ∀ buf' ∈ g.ase0Bufs tbuf, buf.pa + buf.size < buf'.pa + 2 ^ 32

/-! ## The condition -/

/-- The lowest of the entry of the program, the rodata and the stack, for the device. -/
def GraphObject.lowestAddr (g : GraphObject) (tbuf : ThreadBufferInfo) : ℕ :=
  min (g.pbuf.text.pa - g.shmOffset + g.info.entry.toNat)
    (min (tbuf.rodata.pa - g.shmOffset) (tbuf.stack.pa - g.shmOffset))

/-- The lowest address is a multiple of 4 GiB, the text is not below it, and its entry and interrupt
handler are less than 4 GiB above it; the static and the reuse group have bytes, and less than
4 GiB. -/
structure GraphObject.AsePlaced (g : GraphObject) (tbuf : ThreadBufferInfo) : Prop where
  aligned : g.lowestAddr tbuf % 2 ^ 32 = 0
  text : g.info.entry = 0 ∨ tbuf.rodata.pa ≤ g.pbuf.text.pa ∨ tbuf.stack.pa ≤ g.pbuf.text.pa
  near : g.pbuf.text.pa - g.shmOffset + max g.info.entry.toNat 0x10 < g.lowestAddr tbuf + 2 ^ 32
  static : g.pbuf.staticGroup.size ≠ 0 ∧ g.pbuf.staticGroup.size < 2 ^ 32
  reuse : tbuf.reuseGroup.size ≠ 0 ∧ tbuf.reuseGroup.size < 2 ^ 32

/-! ## Groups -/

section Groups

variable {roundupPowOfTwo : ℕ → ℕ} {ase : Ase} {writes : List RegWrite} {enable lo size : ℕ}

/-- An ASE whose base is the group covers it, and its size is rounded up from some bytes, iff the
size is a word other than zero. -/
theorem Ase.covers_group_iff (hround : RoundsUpToPower roundupPowOfTwo)
    (hbase : ase.base writes = some lo) (hctrl : lastWrite writes ase.ctrlRegOffset =
      some (enable * 2 ^ 30 ||| zhouyiV2AseCtrlSize roundupPowOfTwo (wrap 32 size))) :
    ase.Covers writes lo size ∧ wrap 32 size ≠ 0 ↔ size ≠ 0 ∧ size < 2 ^ 32 := by
  have hword := wrap_lt 32 size
  rw [Ase.covers_iff hbase hctrl]
  constructor
  · rintro ⟨⟨-, hcovers⟩, hpos⟩
    have hwindow := aseWindowSize_le hround hpos hword enable
    unfold wrap at hpos
    omega
  · rintro ⟨hpos, hlt⟩
    rw [wrap_of_lt hlt]
    have hwindow := le_aseWindowSize hround hpos (by omega) enable
    exact ⟨⟨le_rfl, by omega⟩, hpos⟩

end Groups

/-! ## Addresses -/

section Reached

variable {roundupPowOfTwo : ℕ → ℕ} {udesc : UserJobDesc}

/-- The base of ASE 0 and the relative address add up to the address iff the lowest address is a
multiple of `2 ^ 32` and less than 4 GiB below. -/
theorem UserJobDesc.ase0Addr_iff (hasid : udesc.enableAsid ≠ 0) {addr : ℕ}
    (hle : udesc.ase0Start ≤ addr)
    (hlt : addr < 2 ^ 64) : udesc.ase0Start / 2 ^ 32 * 2 ^ 32 + udesc.ase0Addr addr = addr ↔
      udesc.ase0Start % 2 ^ 32 = 0 ∧ addr < udesc.ase0Start + 2 ^ 32 := by
  rw [UserJobDesc.ase0Addr, if_pos hasid]
  exact base_add_distance_iff hle hlt

/-- The registers reach the addresses of a job iff the lowest one is a multiple of `2 ^ 32` and all
are near it. -/
theorem UserJobDesc.reached_iff (hasid : udesc.enableAsid ≠ 0)
    (hle : ∀ addr ∈ udesc.ase0Addrs, udesc.ase0Start ≤ addr)
    (hlt : ∀ addr ∈ udesc.ase0Addrs, addr < 2 ^ 64) :
    udesc.Reached (zhouyiV2Trigger roundupPowOfTwo udesc) ↔
      udesc.ase0Start % 2 ^ 32 = 0 ∧ ∀ addr ∈ udesc.ase0Addrs, addr < udesc.ase0Start + 2 ^ 32 := by
  have hbase := @ase0_base roundupPowOfTwo udesc hasid
    ((hle _ List.mem_cons_self).trans_lt (hlt _ List.mem_cons_self))
  have hwrites := @UserJobDesc.aseWrites roundupPowOfTwo udesc hasid
  have hreached : udesc.Reached (zhouyiV2Trigger roundupPowOfTwo udesc) ↔
      ∀ addr ∈ udesc.ase0Addrs, udesc.ase0Start / 2 ^ 32 * 2 ^ 32 + udesc.ase0Addr addr = addr := by
    rw [UserJobDesc.ase0Addrs, List.forall_mem_cons, List.forall_mem_cons, List.forall_mem_cons,
      List.forall_mem_singleton, ← Ase.reaches_iff hbase hwrites.intrHandler,
      ← Ase.reaches_iff hbase hwrites.data0, ← Ase.reaches_iff hbase hwrites.data1]
    constructor
    · rintro ⟨⟨base, hbase', -, hsum⟩, hintr', hdata0', hdata1'⟩
      obtain rfl := Option.some.inj (hbase.symm.trans hbase')
      exact ⟨hsum, hintr', hdata0', hdata1'⟩
    · rintro ⟨hsum, hintr', hdata0', hdata1'⟩
      exact ⟨⟨_, hbase, hwrites.startPc, hsum⟩, hintr', hdata0', hdata1'⟩
  have hiff : ∀ addr ∈ udesc.ase0Addrs,
      udesc.ase0Start / 2 ^ 32 * 2 ^ 32 + udesc.ase0Addr addr = addr ↔
      udesc.ase0Start % 2 ^ 32 = 0 ∧ addr < udesc.ase0Start + 2 ^ 32 :=
    fun addr haddr => UserJobDesc.ase0Addr_iff hasid (hle addr haddr) (hlt addr haddr)
  rw [hreached]
  constructor
  · intro h
    have hnear := fun addr haddr => (hiff addr haddr).mp (h addr haddr)
    exact ⟨(hnear _ List.mem_cons_self).1, fun addr haddr => (hnear addr haddr).2⟩
  · rintro ⟨haligned, hnear⟩ addr haddr
    exact (hiff addr haddr).mpr ⟨haligned, hnear addr haddr⟩

end Reached

/-! ## The configuration of a job -/

section Config

variable {g : GraphObject} {tbuf : ThreadBufferInfo}

/-- The addresses of a job in exact numbers. -/
structure GraphObject.ExactAddrs (g : GraphObject) (tbuf : ThreadBufferInfo)
    (udesc : UserJobDesc) : Prop where
  addrs : udesc.ase0Addrs =
    [g.pbuf.text.pa - g.shmOffset + g.info.entry.toNat, g.pbuf.text.pa - g.shmOffset + 0x10,
    tbuf.rodata.pa - g.shmOffset, tbuf.stack.pa - g.shmOffset]
  start : udesc.ase0Start = g.lowestAddr tbuf
  finish : udesc.ase0End =
    max (g.pbuf.text.pa - g.shmOffset + g.info.entry.toNat + g.pbuf.text.size)
    (max (tbuf.rodata.pa - g.shmOffset + tbuf.rodata.size)
      (tbuf.stack.pa - g.shmOffset + tbuf.stack.size))

/-- The device address of a buffer for ASE 0. -/
theorem GraphObject.Ase0Regular.host2dev_eq (h : g.Ase0Regular tbuf) {buf : BufferDesc}
    (hbuf : buf ∈ g.ase0Bufs tbuf) :
    g.host2dev buf.pa = buf.pa - g.shmOffset := by
  have hphysical := h.physical buf hbuf
  have hle := h.host2dev buf hbuf
  rw [GraphObject.host2dev, wrap_of_lt (by omega), wrapSub_of_le (by omega) hle]

/-- The size of a buffer for ASE 0 is a word. -/
theorem GraphObject.Ase0Regular.size_lt (h : g.Ase0Regular tbuf) {buf : BufferDesc}
    (hbuf : buf ∈ g.ase0Bufs tbuf) :
    buf.size < 2 ^ 32 := by
  have hnear := h.near buf hbuf buf hbuf
  omega

/-- Nothing wraps in the configuration of a job. -/
theorem GraphObject.Ase0Regular.exactAddrs (h : g.Ase0Regular tbuf) (jobId : ℕ) :
    g.ExactAddrs tbuf { g.config tbuf with jobId := jobId } := by
  have htext : g.pbuf.text ∈ g.ase0Bufs tbuf := List.mem_cons_self
  have hrodata : tbuf.rodata ∈ g.ase0Bufs tbuf := List.mem_cons_of_mem _ List.mem_cons_self
  have hstack : tbuf.stack ∈ g.ase0Bufs tbuf :=
    List.mem_cons_of_mem _ (List.mem_cons_of_mem _ List.mem_cons_self)
  have hentry := g.info.entry.toNat_lt
  have htextEnd := h.physical _ htext
  have hrodataEnd := h.physical _ hrodata
  have hstackEnd := h.physical _ hstack
  have hstart : (g.config tbuf).startPcAddr =
      g.pbuf.text.pa - g.shmOffset + g.info.entry.toNat := by
    rw [GraphObject.config, h.host2dev_eq htext, wrap_of_lt (by omega)]
  have hintr : (g.config tbuf).intrHandlerAddr = g.pbuf.text.pa - g.shmOffset + 0x10 := by
    rw [GraphObject.config, h.host2dev_eq htext, wrap_of_lt (by omega : _ + 0x10 < 2 ^ 64)]
  have hdata0 : (g.config tbuf).data0Addr = tbuf.rodata.pa - g.shmOffset := h.host2dev_eq hrodata
  have hdata1 : (g.config tbuf).data1Addr = tbuf.stack.pa - g.shmOffset := h.host2dev_eq hstack
  have hcode : (g.config tbuf).codeSize = g.pbuf.text.size := wrap_of_lt (h.size_lt htext)
  have hrodataSize : (g.config tbuf).rodataSize = tbuf.rodata.size := wrap_of_lt (h.size_lt hrodata)
  have hstackSize : (g.config tbuf).stackSize = tbuf.stack.size := wrap_of_lt (h.size_lt hstack)
  constructor
  · rw [UserJobDesc.ase0Addrs, hstart, hintr, hdata0, hdata1]
  · rw [UserJobDesc.ase0Start, hstart, hdata0, hdata1, GraphObject.lowestAddr]
  · rw [UserJobDesc.ase0End, hstart, hdata0, hdata1, hcode, hrodataSize, hstackSize,
      wrap_of_lt (by omega), wrap_of_lt (by omega), wrap_of_lt (by omega)]

end Config

/-! ## Windows -/

section Describes

variable {g g₀ : GraphObject} {tbuf : ThreadBufferInfo} {roundupPowOfTwo : ℕ → ℕ} {jobId : ℕ}

/-- ASE 1 and ASE 2 cover the groups, and their sizes are rounded up from some bytes, iff the groups
have bytes and are smaller than 4 GiB. -/
theorem GraphObject.groups_iff (hround : RoundsUpToPower roundupPowOfTwo) {udesc : UserJobDesc}
    (hudesc : udesc = { g.config tbuf with jobId := jobId }) (hasid : udesc.enableAsid ≠ 0) :
    ((Ase.ase1.Covers (zhouyiV2Trigger roundupPowOfTwo udesc) (g.host2dev g.pbuf.staticGroup.pa)
        g.pbuf.staticGroup.size ∧ udesc.staticSize ≠ 0) ↔
      g.pbuf.staticGroup.size ≠ 0 ∧ g.pbuf.staticGroup.size < 2 ^ 32) ∧
    ((Ase.ase2.Covers (zhouyiV2Trigger roundupPowOfTwo udesc)
        (g.host2dev tbuf.reuseGroup.pa) tbuf.reuseGroup.size ∧ udesc.reuseSize ≠ 0) ↔
      tbuf.reuseGroup.size ≠ 0 ∧ tbuf.reuseGroup.size < 2 ^ 32) := by
  have hstaticBase : Ase.ase1.base (zhouyiV2Trigger roundupPowOfTwo udesc) =
      some (g.host2dev g.pbuf.staticGroup.pa) := by
    subst hudesc
    exact ase1_base hasid (wrapSub_lt _ _ _)
  have hreuseBase : Ase.ase2.base (zhouyiV2Trigger roundupPowOfTwo udesc) =
      some (g.host2dev tbuf.reuseGroup.pa) := by
    subst hudesc
    exact ase2_base hasid (wrapSub_lt _ _ _)
  have hwrites := @UserJobDesc.aseWrites roundupPowOfTwo udesc hasid
  subst hudesc
  exact ⟨Ase.covers_group_iff hround hstaticBase hwrites.ctrl1,
    Ase.covers_group_iff hround hreuseBase hwrites.ctrl2⟩

/-- The text of a graph that was loaded has bytes. -/
theorem GraphObject.load_text_size {id shmOffset : ℕ} {info : GraphInfo} {kernel : LoadMalloc}
    {es : List BufferEvent}
    (hload : GraphObject.load id shmOffset info kernel = some (.success, g₀, es)) :
    0 < g₀.pbuf.text.size := by
  obtain ⟨_, _, _, _, _, -, htext, -, rfl, -⟩ := GraphObject.load_cases hload
  unfold loadTextBuffer at htext
  split_ifs at htext with hnull hempty
  exact Nat.pos_of_ne_zero (not_or.mp hempty).2

/-- ASE 0 and the addresses relative to it are right iff the lowest address is a multiple of 4 GiB
and the text is near it and not below it. -/
theorem GraphObject.Ase0Regular.ase0_iff (h : g.Ase0Regular tbuf)
    (hround : RoundsUpToPower roundupPowOfTwo)
    (hpos : 0 < g.pbuf.text.size) {udesc : UserJobDesc} (hexact : g.ExactAddrs tbuf udesc)
    (hasid : udesc.enableAsid ≠ 0) :
    (udesc.Reached (zhouyiV2Trigger roundupPowOfTwo udesc) ∧
        (∀ addr ∈ udesc.ase0Addrs, udesc.ase0Start ≤ addr) ∧
        (∀ buf ∈ g.ase0Bufs tbuf,
          Ase.ase0.Covers (zhouyiV2Trigger roundupPowOfTwo udesc) (g.host2dev buf.pa) buf.size) ∧
        wrapSub 64 udesc.ase0End udesc.ase0Start ≠ 0) ↔
      g.lowestAddr tbuf % 2 ^ 32 = 0 ∧
        (g.info.entry = 0 ∨ tbuf.rodata.pa ≤ g.pbuf.text.pa ∨ tbuf.stack.pa ≤ g.pbuf.text.pa) ∧
        g.pbuf.text.pa - g.shmOffset + max g.info.entry.toNat 0x10 <
          g.lowestAddr tbuf + 2 ^ 32 := by
  have htext : g.pbuf.text ∈ g.ase0Bufs tbuf := List.mem_cons_self
  have hrodata : tbuf.rodata ∈ g.ase0Bufs tbuf := List.mem_cons_of_mem _ List.mem_cons_self
  have hstack : tbuf.stack ∈ g.ase0Bufs tbuf :=
    List.mem_cons_of_mem _ (List.mem_cons_of_mem _ List.mem_cons_self)
  have hentry := g.info.entry.toNat_lt
  have hentry0 : g.info.entry = 0 ↔ g.info.entry.toNat = 0 := UInt32.toNat_inj.symm
  have htextEnd := h.physical _ htext
  have hrodataEnd := h.physical _ hrodata
  have hstackEnd := h.physical _ hstack
  have htextStart := h.host2dev _ htext
  have hrodataStart := h.host2dev _ hrodata
  have hstackStart := h.host2dev _ hstack
  have htextRodata := h.near _ htext _ hrodata
  have htextStack := h.near _ htext _ hstack
  have hrodataText := h.near _ hrodata _ htext
  have hrodataStack := h.near _ hrodata _ hstack
  have hstackText := h.near _ hstack _ htext
  have hstackRodata := h.near _ hstack _ hrodata
  have hlow : (g.lowestAddr tbuf = g.pbuf.text.pa - g.shmOffset + g.info.entry.toNat ∨
      g.lowestAddr tbuf = tbuf.rodata.pa - g.shmOffset ∨
      g.lowestAddr tbuf = tbuf.stack.pa - g.shmOffset) ∧
      g.lowestAddr tbuf ≤ g.pbuf.text.pa - g.shmOffset + g.info.entry.toNat ∧
      g.lowestAddr tbuf ≤ tbuf.rodata.pa - g.shmOffset ∧
        g.lowestAddr tbuf ≤ tbuf.stack.pa - g.shmOffset := by
    unfold GraphObject.lowestAddr
    omega
  have hlt : ∀ addr ∈ udesc.ase0Addrs, addr < 2 ^ 64 := by
    rw [hexact.addrs, List.forall_mem_cons, List.forall_mem_cons, List.forall_mem_cons,
      List.forall_mem_singleton]
    omega
  have hbase := @ase0_base roundupPowOfTwo udesc hasid (by rw [hexact.start]; omega)
  have hctrl := (@UserJobDesc.aseWrites roundupPowOfTwo udesc hasid).ctrl0
  rw [hexact.start] at hbase
  rw [hentry0]
  constructor
  · rintro ⟨hreached, hunder, hcovers, -⟩
    obtain ⟨haligned, hnear⟩ := (UserJobDesc.reached_iff hasid hunder hlt).mp hreached
    have hcovers := ((Ase.covers_iff hbase hctrl).mp (hcovers _ htext)).1
    rw [h.host2dev_eq htext] at hcovers
    rw [hexact.start] at haligned hnear
    rw [hexact.addrs, List.forall_mem_cons, List.forall_mem_cons] at hnear
    exact ⟨haligned, by omega, by omega⟩
  · rintro ⟨haligned, hbelow, hnear⟩
    have hle : g.lowestAddr tbuf ≤ g.pbuf.text.pa - g.shmOffset := by omega
    have hsize : wrapSub 64 udesc.ase0End udesc.ase0Start = udesc.ase0End - g.lowestAddr tbuf := by
      rw [hexact.start, wrapSub_of_le]
      all_goals
        rw [hexact.finish]
        omega
    have hunder : ∀ addr ∈ udesc.ase0Addrs, udesc.ase0Start ≤ addr := by
      rw [hexact.start, hexact.addrs, List.forall_mem_cons, List.forall_mem_cons,
        List.forall_mem_cons, List.forall_mem_singleton]
      omega
    have hinside : ∀ buf ∈ g.ase0Bufs tbuf,
        g.lowestAddr tbuf ≤ buf.pa - g.shmOffset ∧
          buf.pa - g.shmOffset + buf.size ≤ udesc.ase0End := by
      rw [hexact.finish, GraphObject.ase0Bufs, List.forall_mem_cons, List.forall_mem_cons,
        List.forall_mem_singleton]
      omega
    have hpositive : wrapSub 64 udesc.ase0End udesc.ase0Start ≠ 0 := by
      rw [hsize, hexact.finish]
      omega
    have hwindow := le_aseWindowSize hround hpositive (by rw [hsize, hexact.finish]; omega) 3
    have hcovered : udesc.ase0End ≤ g.lowestAddr tbuf / 2 ^ 32 * 2 ^ 32 +
        aseWindowSize (3 * 2 ^ 30 ||| zhouyiV2AseCtrlSize roundupPowOfTwo
          (wrapSub 64 udesc.ase0End udesc.ase0Start)) := by
      rw [hsize] at hwindow ⊢
      omega
    refine ⟨(UserJobDesc.reached_iff hasid hunder hlt).mpr ⟨by rwa [hexact.start], ?_⟩, hunder,
      ?_, hpositive⟩
    · rw [hexact.start, hexact.addrs, List.forall_mem_cons, List.forall_mem_cons,
        List.forall_mem_cons, List.forall_mem_singleton]
      omega
    · intro buf hbuf
      obtain ⟨hlo, hhi⟩ := hinside buf hbuf
      rw [Ase.covers_iff hbase hctrl, h.host2dev_eq hbuf]
      exact ⟨by omega, hhi.trans hcovered⟩

/-- **The registers describe the memory of a job** iff the lowest of its addresses is a multiple of
4 GiB, the text is near it and not below it, and the groups have bytes, and less than 4 GiB.  It
does not matter what the kernel has answered to the requests. -/
theorem ase_describes_iff {id shmOffset : ℕ} {info : GraphInfo} {kernel : LoadMalloc}
    {es tr : List BufferEvent}
    (hload : GraphObject.load id shmOffset info kernel = some (.success, g₀, es))
    (hsteps : graphObjectSystem.Steps anyStep g₀ tr g) (hasid : g.isAsidEnabled = true)
    (hregular : g.Ase0Regular tbuf) (hround : RoundsUpToPower roundupPowOfTwo) :
    g.AseDescribes tbuf { g.config tbuf with jobId := jobId }
      (zhouyiV2Trigger roundupPowOfTwo { g.config tbuf with jobId := jobId }) ↔
        g.AsePlaced tbuf := by
  have henabled : ({ g.config tbuf with jobId := jobId } : UserJobDesc).enableAsid ≠ 0 := by
    simp [GraphObject.config, hasid]
  have hpos : 0 < g.pbuf.text.size := by
    rw [(graphObjectSystem_loaded hsteps).2.2]
    exact GraphObject.load_text_size hload
  have hase0 := hregular.ase0_iff hround hpos (hregular.exactAddrs jobId) henabled
  obtain ⟨hase1, hase2⟩ := @GraphObject.groups_iff g tbuf _ jobId hround _ rfl henabled
  constructor
  · rintro ⟨hreached, hunder, hcovers, hstaticCovers, hreuseCovers, hrounded⟩
    rw [UserJobDesc.aseSizes, List.forall_mem_cons, List.forall_mem_cons,
      List.forall_mem_singleton] at hrounded
    obtain ⟨hsize, hstaticSize, hreuseSize⟩ := hrounded
    obtain ⟨haligned, hbelow, hnear⟩ := hase0.mp ⟨hreached, hunder, hcovers, hsize⟩
    exact ⟨haligned, hbelow, hnear, hase1.mp ⟨hstaticCovers, hstaticSize⟩,
      hase2.mp ⟨hreuseCovers, hreuseSize⟩⟩
  · rintro ⟨haligned, hbelow, hnear, hstaticPlaced, hreusePlaced⟩
    obtain ⟨hreached, hunder, hcovers, hsize⟩ := hase0.mpr ⟨haligned, hbelow, hnear⟩
    obtain ⟨hstaticCovers, hstaticSize⟩ := hase1.mpr hstaticPlaced
    obtain ⟨hreuseCovers, hreuseSize⟩ := hase2.mpr hreusePlaced
    refine ⟨hreached, hunder, hcovers, hstaticCovers, hreuseCovers, ?_⟩
    rw [UserJobDesc.aseSizes, List.forall_mem_cons, List.forall_mem_cons, List.forall_mem_singleton]
    exact ⟨hsize, hstaticSize, hreuseSize⟩

/-- The buffers of the sample. -/
theorem allocatedObject_regular {shmOffset : ℕ} (hshm : shmOffset ≤ 0x90000000)
    (offset size : UInt32) :
    (allocatedObject shmOffset offset size).Ase0Regular (sampleTbuf offset size) := by
  have hforall : ∀ p : BufferDesc → Prop,
      (∀ buf ∈ (allocatedObject shmOffset offset size).ase0Bufs (sampleTbuf offset size), p buf) ↔
        p { va := 0x7000000, pa := 0x90000000, size := 4096, realSize := 4 } ∧
        p { va := 0x7030000, pa := 0x90030000, size := 4096, realSize := 4 } ∧
        p { va := 0x7020000, pa := 0x90020000, size := 4096, realSize := 256 } := by
    intro p
    rw [GraphObject.ase0Bufs, List.forall_mem_cons, List.forall_mem_cons, List.forall_mem_singleton]
    rfl
  constructor
  · rw [hforall]
    exact ⟨hshm, hshm.trans (by decide), hshm.trans (by decide)⟩
  · rw [hforall]
    decide
  · simp only [hforall]
    decide

/-- `roundup_pow_of_two` with one for zero. -/
theorem roundsUpToPower_clog : RoundsUpToPower fun n => 2 ^ Nat.clog 2 n := fun _ _ _ => rfl

/-- On a board whose shared memory starts at the text, the lowest address of the sample is zero. -/
theorem ase_describes_sample :
    (allocatedObject 0x90000000 16 64).AseDescribes (sampleTbuf 16 64)
      { (allocatedObject 0x90000000 16 64).config (sampleTbuf 16 64) with jobId := 0x10000 }
      (zhouyiV2Trigger (fun n => 2 ^ Nat.clog 2 n)
        { (allocatedObject 0x90000000 16 64).config (sampleTbuf 16 64) with
          jobId := 0x10000 }) := by
  obtain ⟨es, hload⟩ := sampleObject_loaded 0x90000000 16 64
  obtain ⟨tr, hsteps⟩ := allocatedObject_steps 0x90000000 16 64
  refine (ase_describes_iff hload (hsteps.mono fun _ _ _ => trivial) (by decide)
    (allocatedObject_regular le_rfl 16 64) roundsUpToPower_clog).mpr ?_
  exact ⟨by decide, .inl rfl, by decide, ⟨by decide, by decide⟩, by decide, by decide⟩

/-- On a board without offset the base of ASE 0 is zero for the sample, whose text is the lowest. -/
theorem ase_not_describes :
    ∃ g₀ es tr g,
      GraphObject.load 1 0 (sampleInfo 16 64) sampleLoad = some (.success, g₀, es) ∧
      graphObjectSystem.Steps SoundAnswers g₀ tr g ∧
      g.getTbufPtr 0x10000 = some (sampleTbuf 16 64) ∧
      g.isAsidEnabled = true ∧ g.Ase0Regular (sampleTbuf 16 64) ∧
      ¬g.AseDescribes (sampleTbuf 16 64) { g.config (sampleTbuf 16 64) with jobId := 0x10000 }
        (zhouyiV2Trigger (fun n => 2 ^ Nat.clog 2 n) { g.config (sampleTbuf 16 64) with
          jobId := 0x10000 }) := by
  obtain ⟨es, hload⟩ := sampleObject_loaded 0 16 64
  obtain ⟨tr, hsteps⟩ := allocatedObject_steps 0 16 64
  refine ⟨_, es, tr, _, hload, hsteps, rfl, by decide, allocatedObject_regular (by decide) 16 64,
    fun h => ?_⟩
  obtain ⟨base, value, hbase, hvalue, hsum⟩ := h.reached.data0
  obtain rfl : 0 = base := Option.some.inj hbase
  obtain rfl : 0x30000 = value := Option.some.inj hvalue
  exact absurd hsum (by decide)

end Describes

end Aipu
