import AipuDriver.Lib.MemoryBytes
import AipuDriver.Umd.Tensors

/-!
# Running a graph with its inputs (`high_level_api_impl.cpp`)

`Graph::Run` is there for inputs in files and for inputs in vectors.  Both load the inputs into the
tensor buffers of the graph, run a job and read the outputs.  The two loops over the inputs have
different conditions: the second one is `i < (i < number) && i < size`, where `(i < number)` is zero
or one, so that it loads the first input only.

A file is the list of its bytes, and a vector is the list of its words; each is at least as long as
its tensor.  The tensor buffers of the graph are allocated, so that `is_buf_alloc` is set.  What
creating and finishing a job makes of the memory is a parameter.
-/

namespace Aipu

open ByteReader KeyedList Word

/-! ## The program -/

/-- `Graph` of the high-level interface: what it knows of the tensors and of their buffers. -/
structure HighLevelGraph where
  /-- `gdesc.inputs` -/
  inputDescs : List IoTensorDesc
  /-- `gdesc.outputs` -/
  outputDescs : List IoTensorDesc
  /-- `info.inputs` -/
  inputs : List TensorBuffer
  /-- `info.outputs` -/
  outputs : List TensorBuffer
deriving DecidableEq, Repr

/-- The interface to a graph with one of its thread buffers. -/
def GraphObject.highLevel (g : GraphObject) (tbuf : ThreadBufferInfo) : HighLevelGraph where
  inputDescs := g.info.inputs
  outputDescs := g.info.outputs
  inputs := tbuf.iobuf.inputs
  outputs := tbuf.iobuf.outputs

/-- `LoadInputTensor` for data in memory; the address of a vector without elements is null. -/
def HighLevelGraph.loadInputTensor (hl : HighLevelGraph) (mem : Memory) (i : ℕ)
    (data : List UInt8) : ℤ × Memory :=
  match hl.inputDescs[i]? with
  | none => (-2, mem)
  | some desc =>
    if data = [] then (-3, mem)
    else
      match hl.inputs[i]? with
      | none => (0, mem)
      | some tensor => (0, storeBytes mem tensor.va (data.take desc.size.toNat))

/-- `LoadInputTensor` for a file; an empty one cannot be mapped
(`AIPU_STATUS_ERROR_MAP_FILE_FAIL`). -/
def HighLevelGraph.loadInputFile (hl : HighLevelGraph) (mem : Memory) (i : ℕ) (file : List UInt8) :
    ℤ × Memory :=
  if file = [] then (0xC, mem) else hl.loadInputTensor mem i file

/-- `for (; cond(i); i++) mem = body(i, mem)` when the condition is false after `fuel` steps. -/
def forLoop (cond : ℕ → Bool) (body : ℕ → Memory → Memory) : ℕ → ℕ → Memory → Memory
  | 0, _, mem => mem
  | fuel + 1, i, mem => if cond i then forLoop cond body fuel (i + 1) (body i mem) else mem

/-- The loop over the files in `Run`. -/
def HighLevelGraph.loadFiles (hl : HighLevelGraph) (mem : Memory)
    (inputFiles : List (List UInt8)) : Memory :=
  forLoop (fun i => decide (i < hl.inputs.length) && decide (i < wrap 32 inputFiles.length))
    (fun i mem => (hl.loadInputFile mem i (inputFiles[i]?.getD [])).2) hl.inputs.length 0 mem

/-- The loop over the vectors in `Run`: `i < (i < number) && i < size`. -/
def HighLevelGraph.loadVectors (hl : HighLevelGraph) (mem : Memory)
    (inputs : List (List UInt32)) : Memory :=
  forLoop (fun i => decide (i < (decide (i < hl.inputs.length)).toNat) &&
    decide (i < wrap 32 inputs.length))
    (fun i mem => (hl.loadInputTensor mem i ((inputs[i]?.getD []).flatMap wordBytes)).2)
      hl.inputs.length 0 mem

/-- `GetOutputTensor`; `char` is the value of a `char`, which may be signed or not. -/
def HighLevelGraph.getOutputTensor (hl : HighLevelGraph) (char : UInt8 → ℤ) (mem : Memory)
    (i : ℕ) : List ℤ :=
  match hl.outputs[i]?, hl.outputDescs[i]? with
  | some tensor, some desc => (bytesAt mem tensor.va desc.size.toNat).map char
  | _, _ => []

/-- The end of `Run`: the outputs after the job. -/
def HighLevelGraph.results (hl : HighLevelGraph) (char : UInt8 → ℤ) (mem : Memory) :
    List (List ℤ) :=
  (List.range hl.outputs.length).map (hl.getOutputTensor char mem)

/-- `Run` for inputs in files; `device` is what creating and finishing a job makes of the memory. -/
def HighLevelGraph.runFiles (hl : HighLevelGraph) (char : UInt8 → ℤ) (device : Memory → Memory)
    (mem : Memory)
    (inputFiles : List (List UInt8)) :
    List (List ℤ) := hl.results char (device (hl.loadFiles mem inputFiles))

/-- `Run` for inputs in vectors. -/
def HighLevelGraph.runVectors (hl : HighLevelGraph) (char : UInt8 → ℤ) (device : Memory → Memory)
    (mem : Memory)
    (inputs : List (List UInt32)) :
    List (List ℤ) := hl.results char (device (hl.loadVectors mem inputs))

/-! ## The property -/

/-- The vectors as bytes. -/
def inputBytes (inputs : List (List UInt32)) : List (List UInt8) := inputs.map (·.flatMap wordBytes)

/-- Data `i` has to be in input tensor `i`: the address and the bytes. -/
def HighLevelGraph.Wants (hl : HighLevelGraph) (inputs : List (List UInt8)) (i va : ℕ)
    (bytes : List UInt8) : Prop :=
  ∃ tensor desc data, hl.inputs[i]? = some tensor ∧ hl.inputDescs[i]? = some desc ∧
    inputs[i]? = some data ∧
    va = tensor.va ∧ bytes = data.take desc.size.toNat

/-- Every input is in its tensor. -/
def HighLevelGraph.Loads (hl : HighLevelGraph) (mem : Memory) (inputs : List (List UInt8)) : Prop :=
  ∀ i va bytes, hl.Wants inputs i va bytes → mem.Holds va bytes

/-- Two memories have the same bytes in the input tensors. -/
def HighLevelGraph.SameInputs (hl : HighLevelGraph) (mem mem' : Memory) : Prop :=
  ∀ (i : ℕ) tensor desc, hl.inputs[i]? = some tensor → hl.inputDescs[i]? = some desc →
    bytesAt mem tensor.va desc.size.toNat = bytesAt mem' tensor.va desc.size.toNat

/-- The byte that the first input brings to an address. -/
def HighLevelGraph.firstByte (hl : HighLevelGraph) (inputs : List (List UInt8)) (q : ℕ) :
    Option UInt8 :=
  match hl.inputs[0]?, hl.inputDescs[0]?, inputs[0]? with
  | some tensor, some desc, some data =>
    if 0 < wrap 32 inputs.length ∧
      tensor.va ≤ q then (data.take desc.size.toNat)[q - tensor.va]? else none
  | _, _, _ => none

/-- Every input but the first one is in its tensor before the run, apart from bytes that the first
one brings.  (Of a list whose length is zero in 32 bits, not even the first one is loaded.) -/
def HighLevelGraph.AlreadyLoaded (hl : HighLevelGraph) (mem : Memory)
    (inputs : List (List UInt8)) : Prop :=
  ∀ i va bytes, (i = 0 → wrap 32 inputs.length = 0) → hl.Wants inputs i va bytes →
    ∀ k b, bytes[k]? = some b → (hl.firstByte inputs (va + k)).getD (mem (va + k)) = b

/-- The two overloads leave the same inputs, each in its tensor, and return the same results for
every device. -/
def HighLevelGraph.RunsAgree (hl : HighLevelGraph) (char : UInt8 → ℤ) (mem : Memory)
    (inputs : List (List UInt32)) :
    Prop :=
  hl.SameInputs (hl.loadFiles mem (inputBytes inputs)) (hl.loadVectors mem inputs) ∧
    hl.Loads (hl.loadFiles mem (inputBytes inputs)) (inputBytes inputs) ∧
    hl.Loads (hl.loadVectors mem inputs) (inputBytes inputs) ∧
    ∀ device, hl.runFiles char device mem (inputBytes inputs) = hl.runVectors char device mem inputs

/-! ## What the loops load -/

section Loops

variable {hl : HighLevelGraph} {mem : Memory} {inputs : List (List UInt32)} {i va : ℕ}
    {bytes : List UInt8}

/-- A loop whose body changes nothing. -/
theorem forLoop_eq_self {cond : ℕ → Bool} {body : ℕ → Memory → Memory} {fuel : ℕ}
    (h : ∀ j, i ≤ j → cond j → body j mem = mem) : forLoop cond body fuel i mem = mem := by
  induction fuel generalizing i with
  | zero => rfl
  | succ fuel ih =>
    rw [forLoop]
    split
    next hcond =>
      rw [h i le_rfl hcond]
      exact ih fun j hj => h j (by omega)
    next => rfl

/-- Data that is loaded is stored in its tensor. -/
theorem HighLevelGraph.loadInputTensor_mem {tensor : TensorBuffer} {desc : IoTensorDesc}
    {data : List UInt8}
    (htensor : hl.inputs[i]? = some tensor) (hdesc : hl.inputDescs[i]? = some desc) :
    (hl.loadInputTensor mem i data).2 = storeBytes mem tensor.va (data.take desc.size.toNat) := by
  simp only [HighLevelGraph.loadInputTensor, hdesc, htensor]
  split
  next hnil =>
    subst hnil
    exact (storeBytes_of_holds fun k hk => by simp at hk).symm
  next => rfl

/-- A file that is loaded is stored in its tensor. -/
theorem HighLevelGraph.loadInputFile_mem (mem : Memory) (i : ℕ) (data : List UInt8) :
    (hl.loadInputFile mem i data).2 = (hl.loadInputTensor mem i data).2 := by
  unfold HighLevelGraph.loadInputFile HighLevelGraph.loadInputTensor
  by_cases hnil : data = []
  · simp only [hnil, if_true]
    split <;> rfl
  · simp only [if_neg hnil]

/-- What the loop over the vectors leaves: of a list that is not empty the first input. -/
theorem HighLevelGraph.loadVectors_eq (hl : HighLevelGraph) (mem : Memory)
    (inputs : List (List UInt32)) :
    hl.loadVectors mem inputs =
      if 0 < hl.inputs.length ∧ 0 < wrap 32 inputs.length then
        (hl.loadInputTensor mem 0 ((inputs[0]?.getD []).flatMap wordBytes)).2
      else mem := by
  unfold HighLevelGraph.loadVectors
  split
  next hload =>
    obtain ⟨n, hn⟩ := Nat.exists_eq_add_of_lt hload.1
    rw [hn, Nat.zero_add, forLoop, if_pos (by simp [hload.2])]
    refine forLoop_eq_self fun j hj hcond => ?_
    -- the truth value of `i < number` is one at most
    have hlt : j < (decide (j < n + 1)).toNat := by simpa using (Bool.and_eq_true_iff.mp hcond).1
    have hone := Bool.toNat_le (decide (j < n + 1))
    omega
  next hload =>
    refine forLoop_eq_self fun j _ hcond => ?_
    obtain ⟨hj, hsize⟩ := Bool.and_eq_true_iff.mp hcond
    have hlt := of_decide_eq_true hj
    by_cases hn : j < hl.inputs.length
    · exact absurd ⟨by omega, (Nat.zero_le j).trans_lt (of_decide_eq_true hsize)⟩ hload
    · simp [hn] at hlt

@[simp]
theorem length_inputBytes (inputs : List (List UInt32)) :
    (inputBytes inputs).length = inputs.length :=
  List.length_map _

/-- The bytes after the loop over the vectors. -/
theorem HighLevelGraph.loadVectors_apply (hl : HighLevelGraph) (mem : Memory)
    (inputs : List (List UInt32)) (q : ℕ) :
    hl.loadVectors mem inputs q = (hl.firstByte (inputBytes inputs) q).getD (mem q) := by
  rw [HighLevelGraph.loadVectors_eq, HighLevelGraph.firstByte, length_inputBytes]
  cases htensor : hl.inputs[0]? with
  | none =>
    rw [if_neg fun hload => hload.1.not_ge (List.getElem?_eq_none_iff.mp htensor)]
    rfl
  | some tensor =>
    obtain ⟨hpos, -⟩ := List.getElem?_eq_some_iff.mp htensor
    cases hdesc : hl.inputDescs[0]? with
    | none =>
      have hnone : (hl.loadInputTensor mem 0 ((inputs[0]?.getD []).flatMap wordBytes)).2 = mem := by
        simp [HighLevelGraph.loadInputTensor, hdesc]
      rw [hnone, ite_self]
      rfl
    | some desc =>
      by_cases hsize : 0 < wrap 32 inputs.length
      · have hlen : 0 < inputs.length := hsize.trans_le (wrap_le _ _)
        rw [if_pos ⟨hpos, hsize⟩, HighLevelGraph.loadInputTensor_mem htensor hdesc, inputBytes,
          List.getElem?_map, List.getElem?_eq_getElem hlen, storeBytes]
        simp only [Option.getD_some, Option.map_some, hsize, true_and]
        split <;> rfl
      · rw [if_neg fun hload => hsize hload.2]
        cases (inputBytes inputs)[0]? <;> simp [hsize]

/-- Files with the bytes that a memory has already change nothing. -/
theorem HighLevelGraph.loadInputFile_of_loads {inputs : List (List UInt8)} (h : hl.Loads mem inputs)
    (hi : i < inputs.length) : (hl.loadInputFile mem i (inputs[i]?.getD [])).2 = mem := by
  rw [HighLevelGraph.loadInputFile_mem, List.getElem?_eq_getElem hi, Option.getD_some]
  cases hdesc : hl.inputDescs[i]? with
  | none => simp [HighLevelGraph.loadInputTensor, hdesc]
  | some desc =>
    cases htensor : hl.inputs[i]? with
    | none =>
      simp only [HighLevelGraph.loadInputTensor, hdesc, htensor]
      split <;> rfl
    | some tensor =>
      rw [HighLevelGraph.loadInputTensor_mem htensor hdesc]
      exact storeBytes_of_holds
        (h i _ _ ⟨tensor, desc, _, htensor, hdesc, List.getElem?_eq_getElem hi, rfl, rfl⟩)

/-- When the first input is all that was missing, the two loops leave the same memory. -/
theorem HighLevelGraph.loadFiles_eq_loadVectors
    (h : hl.Loads (hl.loadVectors mem inputs) (inputBytes inputs)) :
    hl.loadFiles mem (inputBytes inputs) = hl.loadVectors mem inputs := by
  have hlt : ∀ {j}, j < wrap 32 (inputBytes inputs).length → j < (inputBytes inputs).length :=
    fun hj => hj.trans_le (wrap_le _ _)
  rw [HighLevelGraph.loadVectors_eq] at h ⊢
  unfold HighLevelGraph.loadFiles
  split at h
  next hload =>
    obtain ⟨n, hn⟩ := Nat.exists_eq_add_of_lt hload.1
    have hfirst : (hl.loadInputFile mem 0 ((inputBytes inputs)[0]?.getD [])).2 =
        (hl.loadInputTensor mem 0 ((inputs[0]?.getD []).flatMap wordBytes)).2 := by
      have hlen : 0 < inputs.length := hload.2.trans_le (wrap_le _ _)
      simp [HighLevelGraph.loadInputFile_mem, inputBytes, hlen]
    rw [if_pos hload, hn, Nat.zero_add, forLoop, if_pos (by simp [hload.2]), hfirst]
    refine forLoop_eq_self fun j _ hcond => ?_
    exact HighLevelGraph.loadInputFile_of_loads h
      (hlt (of_decide_eq_true (Bool.and_eq_true_iff.mp hcond).2))
  next hload =>
    rw [if_neg hload]
    refine forLoop_eq_self fun j _ hcond => ?_
    exact HighLevelGraph.loadInputFile_of_loads h
      (hlt (of_decide_eq_true (Bool.and_eq_true_iff.mp hcond).2))

/-- The loop over the vectors leaves every input in its tensor iff all but the first one were
there. -/
theorem HighLevelGraph.loads_loadVectors_iff :
    hl.Loads (hl.loadVectors mem inputs) (inputBytes inputs) ↔
    hl.AlreadyLoaded mem (inputBytes inputs) := by
  constructor
  · rintro h i va bytes - hwants k b hb
    obtain ⟨hk, rfl⟩ := List.getElem?_eq_some_iff.mp hb
    rw [← HighLevelGraph.loadVectors_apply]
    exact h i va bytes hwants k hk
  · intro h i va bytes hwants k hk
    by_cases hfirst : i = 0 ∧ wrap 32 (inputBytes inputs).length ≠ 0
    · -- the first input is the one that is loaded
      obtain ⟨rfl, hsize⟩ := hfirst
      obtain ⟨tensor, desc, data, htensor, hdesc, hdata, rfl, rfl⟩ := hwants
      rw [length_inputBytes] at hsize
      obtain ⟨hpos, -⟩ := List.getElem?_eq_some_iff.mp htensor
      have hbytes : (inputs[0]?.getD []).flatMap wordBytes = data := by
        rw [inputBytes, List.getElem?_map] at hdata
        obtain ⟨words, hwords, rfl⟩ := Option.map_eq_some_iff.mp hdata
        rw [hwords, Option.getD_some]
      rw [HighLevelGraph.loadVectors_eq, if_pos ⟨hpos, Nat.pos_of_ne_zero hsize⟩,
        HighLevelGraph.loadInputTensor_mem htensor hdesc, hbytes]
      exact storeBytes_holds _ _ _ k hk
    · rw [HighLevelGraph.loadVectors_apply]
      refine h i va bytes (fun h0 => ?_) hwants k _ (List.getElem?_eq_getElem hk)
      by_contra hsize
      exact hfirst ⟨h0, hsize⟩

end Loops

/-! ## Graphs with tensor buffers -/

/-- Every tensor that is described gets a buffer. -/
theorem createIobufInfo_length {reuseBuf : List BufferDesc} {descs : List IoTensorDesc}
    {tensors : List TensorBuffer}
    (h : createIobufInfo reuseBuf descs = some tensors) : tensors.length = descs.length := by
  unfold createIobufInfo at h
  induction descs generalizing tensors with
  | nil =>
    obtain rfl : [] = tensors := Option.some.inj h
    rfl
  | cons desc descs ih =>
    rw [List.mapM_cons] at h
    obtain ⟨first, -, h⟩ := Option.bind_eq_some_iff.mp h
    obtain ⟨rest, hrest, h⟩ := Option.bind_eq_some_iff.mp h
    obtain rfl : first :: rest = tensors := Option.some.inj h
    rw [List.length_cons, List.length_cons, ih hrest]

/-- A graph whose tensor buffers were allocated wants the first inputs, as many as there are and it
has tensors for. -/
theorem GraphObject.exists_wants_iff {g g' : GraphObject} {kernel : ThreadBufferMalloc} {handle : ℕ}
    {es : List BufferEvent} {tbuf : ThreadBufferInfo}
    (halloc : g.allocThreadBuffer kernel = some (.success, g', some handle, es))
    (htbuf : g'.getTbufPtr handle = some tbuf) {inputs : List (List UInt8)} {i : ℕ} :
    (∃ va bytes, (g'.highLevel tbuf).Wants inputs i va bytes) ↔
      i < min g'.info.inputs.length inputs.length := by
  obtain ⟨hinfo, _, _, _, halloc, -⟩ := GraphObject.allocThreadBuffer_new halloc htbuf
  have hlen := createIobufInfo_length (createIobufInfos_tensors halloc.tensors .input)
  rw [← hinfo] at hlen
  constructor
  · rintro ⟨_, _, tensor, desc, data, htensor, hdesc, hdata, -, -⟩
    exact lt_min (List.getElem?_eq_some_iff.mp hdesc).1 (List.getElem?_eq_some_iff.mp hdata).1
  · intro hi
    obtain ⟨hdesc, hdata⟩ := lt_min_iff.mp hi
    have htensor : i < (g'.highLevel tbuf).inputs.length := hlen ▸ hdesc
    exact ⟨_, _, _, _, _, List.getElem?_eq_getElem htensor, List.getElem?_eq_getElem hdesc,
      List.getElem?_eq_getElem hdata, rfl, rfl⟩

/-! ## The two overloads -/

/-- The two overloads of `Run` agree exactly when every input but the first one is in its tensor
before. -/
theorem run_overloads_agree_iff (hl : HighLevelGraph) (char : UInt8 → ℤ) (mem : Memory)
    (inputs : List (List UInt32)) :
    hl.RunsAgree char mem inputs ↔ hl.AlreadyLoaded mem (inputBytes inputs) := by
  rw [← HighLevelGraph.loads_loadVectors_iff]
  constructor
  · rintro ⟨-, -, hvectors, -⟩
    exact hvectors
  · intro hvectors
    have hsame := HighLevelGraph.loadFiles_eq_loadVectors hvectors
    refine ⟨fun _ _ _ _ _ => by rw [hsame], by rwa [hsame], hvectors, fun device => ?_⟩
    rw [HighLevelGraph.runFiles, HighLevelGraph.runVectors, hsame]

/-- The sample with two inputs of four bytes, the second of which is its output, too. -/
def twoInputs : GraphObject :=
  { sampleObject 0 0 4 with
    info := { sampleInfo 0 4 with
      inputs := (sampleInfo 0 4).inputs ++ (sampleInfo 4 4).inputs
      outputs := (sampleInfo 4 4).inputs } }

/-- Its thread buffer. -/
def twoInputsTbuf : ThreadBufferInfo :=
  { sampleTbuf 0 4 with
    iobuf := {
      inputs := (sampleTbuf 0 4).iobuf.inputs ++ (sampleTbuf 4 4).iobuf.inputs
      outputs := (sampleTbuf 4 4).iobuf.inputs } }

/-- The thread buffer is allocated. -/
theorem twoInputs_alloc : twoInputs.allocThreadBuffer sampleMalloc =
    some (.success, { twoInputs with tbufs := [(0x10000, twoInputsTbuf)] }, some 0x10000,
      [.allocated twoInputsTbuf.stack, .allocated twoInputsTbuf.rodata,
        .allocated twoInputsTbuf.reuseGroup]) := by
  have hbase : twoInputs.graph.idBase = 0x10000 := by
    change 1 * 2 ^ 16 % uint32Size = 0x10000
    decide
  have hhandle : twoInputs.createBufHandleInner = some 0x10000 := by
    rw [GraphObject.createBufHandleInner, hbase]
    rfl
  rw [GraphObject.allocThreadBuffer, hhandle]
  rfl

/-- The second vector is not loaded: its tensor keeps the zeros that were there, and a device that
changes nothing returns them. -/
theorem run_overloads_disagree : ∃ g handle tbuf es,
    twoInputs.allocThreadBuffer sampleMalloc = some (.success, g, some handle, es) ∧
    g.getTbufPtr handle = some tbuf ∧
    (g.highLevel tbuf).Wants (inputBytes [[1], [2]]) 1 0x7040004 [2, 0, 0, 0] ∧
    (g.highLevel tbuf).runFiles (fun b => b.toNat) id (fun _ => 0) (inputBytes [[1], [2]]) =
    [[2, 0, 0, 0]] ∧
    (g.highLevel tbuf).runVectors (fun b => b.toNat) id (fun _ => 0) [[1], [2]] = [[0, 0, 0, 0]] ∧
    ¬(g.highLevel tbuf).RunsAgree (fun b => b.toNat) (fun _ => 0) [[1], [2]] := by
  have hfiles : (twoInputs.highLevel twoInputsTbuf).runFiles (fun b => b.toNat) id (fun _ => 0)
      (inputBytes [[1], [2]]) = [[2, 0, 0, 0]] := by decide
  have hvectors : (twoInputs.highLevel twoInputsTbuf).runVectors (fun b => b.toNat) id (fun _ => 0)
      [[1], [2]] =
      [[0, 0, 0, 0]] := by decide
  refine ⟨_, _, twoInputsTbuf, _, twoInputs_alloc, rfl, ⟨_, _, _, rfl, rfl, rfl, rfl, rfl⟩, hfiles,
    hvectors, ?_⟩
  rintro ⟨-, -, -, hresults⟩
  exact absurd (hfiles.symm.trans ((hresults id).trans hvectors)) (by decide)

end Aipu
