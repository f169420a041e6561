import AipuDriver.Umd.GraphReads
import AipuDriver.Umd.GraphRoundTrip

/-!
# The order of the tensors

`sort_io_tensor` copies each tensor to the place of its id, over what is there.  An id that is no
place ends it with an error, but `parse_bss_section` succeeds all the same; and when two tensors
have one id, one of them is lost and a third one stays where it was, without an error.
-/

namespace Aipu

open ByteReader

/-! ## The property -/

/-- The tensors are those that were found, each at the place of its id. -/
structure PlacedById (found sorted : List IoTensorDesc) : Prop where
  ids : ∀ i (hi : i < sorted.length), sorted[i].id.toNat = i
  perm : sorted.Perm found

/-- The inputs and the outputs of a graph are placed by their ids. -/
structure GraphInfo.Places (info : GraphInfo) (d : GraphDescr) : Prop where
  inputs : PlacedById (d.tensors sectionTypeInput) info.inputs
  outputs : PlacedById (d.tensors sectionTypeOutput) info.outputs

/-- No two tensors have one id, and each id is less than the number of tensors. -/
def DistinctIds (l : List IoTensorDesc) : Prop :=
  (l.map IoTensorDesc.id).Nodup ∧ ∀ t ∈ l, t.id.toNat < l.length

instance : DecidablePred DistinctIds := fun _ => inferInstanceAs (Decidable (_ ∧ _))

/-! ## Sorting -/

section Sorting

variable {l sorted : List IoTensorDesc}

/-- As many different numbers as there are places are the places. -/
theorem distinctIds_iff : DistinctIds l ↔ IdsPermuted l := by
  have hmap : (l.map fun t => t.id.toNat) = (l.map IoTensorDesc.id).map UInt32.toNat := by
    rw [List.map_map]
    rfl
  have hnodup : (l.map fun t => t.id.toNat).Nodup ↔ (l.map IoTensorDesc.id).Nodup := by
    rw [hmap]
    exact List.nodup_map_iff fun _ _ => UInt32.toNat_inj.mp
  constructor
  · rintro ⟨hdistinct, hlt⟩
    have hsubset : (l.map fun t => t.id.toNat) ⊆ List.range l.length := by
      intro i hi
      obtain ⟨t, ht, rfl⟩ := List.mem_map.mp hi
      exact List.mem_range.mpr (hlt t ht)
    refine (List.subperm_of_subset (hnodup.mpr hdistinct) hsubset).perm_of_length_le ?_
    rw [List.length_range, List.length_map]
  · intro h
    exact ⟨hnodup.mp (h.nodup_iff.mpr List.nodup_range), fun t ht => h.lt ht⟩

/-- Tensors that can be placed by their ids have different ones. -/
theorem PlacedById.distinctIds (h : PlacedById l sorted) : DistinctIds l := by
  rw [distinctIds_iff]
  have hids : (sorted.map fun t => t.id.toNat) = List.range sorted.length := by
    refine List.ext_getElem (by simp) fun i hi _ => ?_
    rw [List.getElem_map, List.getElem_range]
    exact h.ids i (by simpa using hi)
  have hperm := (h.perm.map fun t => t.id.toNat).symm
  rw [hids, h.perm.length_eq] at hperm
  exact hperm

/-- `sort_io_tensor` places tensors with different ids. -/
theorem DistinctIds.places (h : DistinctIds l) :
    (sortIoTensor l).1 = .success ∧ PlacedById l (sortIoTensor l).2 := by
  have hperm := distinctIds_iff.mp h
  obtain ⟨sorted, hsort, hs⟩ :=
    sortIoTensorFrom_scattered hperm l [] l rfl ⟨rfl, by simp, fun _ _ => rfl⟩
  have hcall : sortIoTensor l = (.success, sorted) := hsort
  rw [hcall]
  exact ⟨rfl, hs.ids hperm, (hs.perm hperm).symm⟩

/-- The tensors are placed iff their ids are different. -/
theorem sortIoTensor_places_iff : PlacedById l (sortIoTensor l).2 ↔ DistinctIds l :=
  ⟨PlacedById.distinctIds, fun h => h.places.2⟩

/-- The loop of `sort_io_tensor` goes on as long as the ids are places. -/
theorem sortIoTensorFrom_success (n i : ℕ) (rest tensors : List IoTensorDesc) :
    (sortIoTensorFrom n i rest tensors).1 = .success ↔ ∀ t ∈ rest, t.id.toNat < n := by
  induction rest generalizing i tensors with
  | nil => simp [sortIoTensorFrom]
  | cons t rest ih =>
    rw [sortIoTensorFrom, List.forall_mem_cons]
    split_ifs with hlarge
    · simp [Nat.not_lt.mpr hlarge]
    all_goals
      rw [ih]
      exact (and_iff_right (Nat.not_le.mp hlarge)).symm

/-- `sort_io_tensor` reports an id that is no place, and nothing else. -/
theorem sortIoTensor_success_iff : (sortIoTensor l).1 = .success ↔ ∀ t ∈ l, t.id.toNat < l.length :=
  sortIoTensorFrom_success l.length 0 l l

end Sorting

/-! ## The caller -/

/-- What the end of `parse_bss_section` makes of the outputs and the inputs. -/
theorem sortIoTensors_io (info : GraphInfo) :
    (sortIoTensors info).outputs = (sortIoTensor info.outputs).2 ∧
      (sortIoTensors info).inputs =
        if (sortIoTensor info.outputs).1 = .success then (sortIoTensor info.inputs).2
        else info.inputs := by
  unfold sortIoTensors
  rcases hsort : sortIoTensor info.outputs with ⟨status, outputs⟩
  by_cases hstatus : status = .success
  · subst hstatus
    exact ⟨rfl, rfl⟩
  · split
    next heq => exact absurd (Prod.mk.inj heq).1 hstatus
    next heq =>
      obtain ⟨rfl, rfl⟩ := Prod.mk.inj heq
      exact ⟨rfl, (if_neg hstatus).symm⟩

/-- The inputs and outputs before they are sorted. -/
theorem GraphDescr.unsorted_io (d : GraphDescr) (header : BinHdr) (graph : ℕ) (size : UInt32) :
    (d.unsorted (header.info graph size)).inputs = d.tensors sectionTypeInput ∧
      (d.unsorted (header.info graph size)).outputs = d.tensors sectionTypeOutput := by
  have hinputs : Found.IsField Found.inputs := ⟨rfl, fun _ _ => rfl⟩
  have houtputs : Found.IsField Found.outputs := ⟨rfl, fun _ _ => rfl⟩
  exact ⟨hinputs.tensors d _ (fun _ _ => rfl) (fun _ => rfl) (fun _ => rfl) fun _ => rfl,
    houtputs.tensors d _ (fun _ _ => rfl) (fun _ => rfl) (fun _ => rfl) fun _ => rfl⟩

/-- When `parse_bss_section` succeeds, the inputs and the outputs are those of the file, each at the
place of its id, iff in the file no two inputs and no two outputs have one id, and no id is too
large. -/
theorem parseBssSection_places_iff {mem : Memory} {header : BinHdr} {graph : ℕ}
    {size bssSize : UInt32} {p : ℕ}
    {info : GraphInfo}
    (h : (parseBssSection mem (header.info graph size) bssSize p).value = .ok info) :
    info.Places (graphAt mem (header.info graph size).linked (header.info graph size).bssSrc) ↔
      DistinctIds ((graphAt mem (header.info graph size).linked
        (header.info graph size).bssSrc).tensors sectionTypeInput) ∧
      DistinctIds ((graphAt mem (header.info graph size).linked
        (header.info graph size).bssSrc).tensors sectionTypeOutput) := by
  rw [info_of_parseBssSection h]
  set d := graphAt mem (header.info graph size).linked (header.info graph size).bssSrc
  obtain ⟨hinputs, houtputs⟩ := d.unsorted_io header graph size
  obtain ⟨hout, hin⟩ := sortIoTensors_io (d.unsorted (header.info graph size))
  rw [houtputs] at hout hin
  rw [hinputs] at hin
  constructor
  · rintro ⟨hplacedIn, hplacedOut⟩
    exact ⟨hplacedIn.distinctIds, hplacedOut.distinctIds⟩
  · rintro ⟨hdistinctIn, hdistinctOut⟩
    rw [if_pos hdistinctOut.places.1] at hin
    constructor
    · rw [GraphDescr.info, hin]
      exact hdistinctIn.places.2
    · rw [GraphDescr.info, hout]
      exact hdistinctOut.places.2

/-! ## Graphs with two outputs -/

/-- The sample graph with other ids of its two outputs. -/
def outputGraph (first second : UInt32) : GraphDescr :=
  { sampleGraph with reuseSections := [{
      size := 128, alignBytes := 4097
      subSections := [
        { offsetInSection := 0, size := 64, type := sectionTypeOutput, id := first,
          dtype := 2, layout := 0
          shape := ⟨1, 1, 1, 64⟩, addrMask := 0xFFFFFFFF, roOffsets := [40] },
        { offsetInSection := 64, size := 64, type := sectionTypeOutput, id := second,
          dtype := 2, layout := 0
          shape := ⟨1, 1, 1, 64⟩, addrMask := 0xFFFFFFFF, roOffsets := [] }] }] }

/-- A file with the graph behind a header. -/
def outputFile (first second : UInt32) : Memory :=
  Memory.ofBytes 4096 (List.replicate 104 0 ++ (outputGraph first second).encode true)

/-- What `parse_bss_section` makes of the file. -/
def parsedOutputs (first second : UInt32) : Except AipuStatus GraphInfo :=
  (parseBssSection (outputFile first second) (sampleHeader.info 4096 400) 248 0).value

/-- Two outputs in the wrong order are placed. -/
theorem parseBssSection_places_sample : ∃ info, parsedOutputs 1 0 = .ok info ∧
    info.Places (graphAt (outputFile 1 0) true (sampleHeader.info 4096 400).bssSrc) := by
  have hsuccess : (parsedOutputs 1 0).toBool = true := by decide +kernel
  cases hparse : parsedOutputs 1 0 with
  | error e =>
    rw [hparse] at hsuccess
    cases hsuccess
  | ok info =>
    refine ⟨info, rfl, (parseBssSection_places_iff hparse).mpr ⟨?_, ?_⟩⟩
    · decide +kernel
    · decide +kernel

/-- Two outputs whose second one has the id 0 are not placed. -/
theorem not_places_of_second {parsed : Except AipuStatus GraphInfo} {first : UInt32}
    (hids : parsed.map (fun info => info.outputs.map IoTensorDesc.id) = .ok [first, 0])
    (d : GraphDescr) :
    ∃ info, parsed = .ok info ∧ ¬info.Places d := by
  cases parsed with
  | error e => cases hids
  | ok info =>
    refine ⟨info, rfl, fun hplaces => ?_⟩
    have hlist : info.outputs.map IoTensorDesc.id = [first, 0] := Except.ok.inj hids
    have hlen : info.outputs.length = 2 := by
      rw [← @List.length_map _ _ info.outputs IoTensorDesc.id, hlist]
      rfl
    obtain ⟨t, u, houtputs⟩ := List.length_eq_two.mp hlen
    rw [houtputs] at hlist
    have hlast : u.id = 0 := (List.cons.inj (List.cons.inj hlist).2).1
    have hplace := hplaces.outputs.ids 1 (by omega)
    simp only [houtputs, List.getElem_cons_succ, List.getElem_cons_zero, hlast] at hplace
    cases hplace

/-- Two outputs have the id 0: the second one is there twice, the first one is lost, and
`sort_io_tensor` reports no error.  An output has the id 2: `sort_io_tensor` reports it, the outputs
stay in the order of the file, and `parse_bss_section` succeeds. -/
theorem parseBssSection_misplaces :
    (∃ info, parsedOutputs 0 0 = .ok info ∧
        ¬info.Places (graphAt (outputFile 0 0) true (sampleHeader.info 4096 400).bssSrc)) ∧
      ∃ info, parsedOutputs 2 0 = .ok info ∧
        ¬info.Places (graphAt (outputFile 2 0) true (sampleHeader.info 4096 400).bssSrc) := by
  have hfirst : (parsedOutputs 0 0).map (fun info => info.outputs.map IoTensorDesc.id) =
      .ok [0, 0] := by
    decide +kernel
  have hsecond : (parsedOutputs 2 0).map (fun info => info.outputs.map IoTensorDesc.id) =
      .ok [2, 0] := by
    decide +kernel
  exact ⟨not_places_of_second hfirst _, not_places_of_second hsecond _⟩

end Aipu
