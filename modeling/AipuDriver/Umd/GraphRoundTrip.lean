import AipuDriver.Umd.GraphDescription
import Mathlib.Data.List.Flatten
import Mathlib.Data.List.Sort

/-!
# Decoding undoes encoding

`GraphDescr.encode` lays a graph out as the bss section of a file.  The description that the parser
goes through is then the graph itself (`graphAt_of_holds`), and `parse_bss_section` returns its
sections, parameter map, nodes and tensors (`parseBssSection_encode`).
-/

namespace Aipu

open ByteReader

/-! ## The layout -/

/-- The words of a sub-section descriptor. -/
def SubSectionDescV3.words (sub : SubSectionDescV3) : List UInt32 :=
  [sub.offsetInSectionExec, sub.size, sub.type, sub.id, sub.dtype, sub.layout, sub.shape.N,
    sub.shape.H, sub.shape.W, sub.shape.C, sub.addrMask, sub.offsetInRoCnt]

/-- The words of a sub-section: its descriptor and the rodata offsets. -/
def SubSectionDescr.words (d : SubSectionDescr) : List UInt32 := d.desc.words ++ d.roOffsets

/-- The words of a static section: its descriptor and the sub-sections. -/
def StaticSectionDescr.words (d : StaticSectionDescr) : List UInt32 :=
  [d.offsetInFile, d.size, d.alignBytes, d.desc.subSectionCnt] ++
    d.subSections.flatMap SubSectionDescr.words

/-- The words of a reuse section: its descriptor and the sub-sections. -/
def ReuseSectionDescr.words (d : ReuseSectionDescr) : List UInt32 :=
  [d.size, d.alignBytes, d.desc.subSectionCnt] ++ d.subSections.flatMap SubSectionDescr.words

/-- The words of a list node. -/
def ListNodeDesc.words (node : ListNodeDesc) : List UInt32 :=
  [node.type, node.nextAddrEntryOffset, node.nextType, node.nextOffset]

/-- The words of a graph: the bss header, the static sections, the reuse sections, and the linked
list if there is one. -/
def GraphDescr.words (d : GraphDescr) (linked : Bool) : List UInt32 :=
  [d.stackSize, d.stackAlignBytes, d.header.staticSectionDescCnt, d.header.reuseSectionDescCnt] ++
    (d.staticSections.flatMap StaticSectionDescr.words ++
      (d.reuseSections.flatMap ReuseSectionDescr.words ++
        if linked then [.ofNat d.nodes.length] ++ d.nodes.flatMap ListNodeDesc.words else []))

/-- The bss section of a graph. -/
def GraphDescr.encode (d : GraphDescr) (linked : Bool) : List UInt8 :=
  (d.words linked).flatMap wordBytes

/-! ## Finding what was laid out -/

section Found

variable {mem : Memory} {p : ℕ}

/-- The words of a list are read at their places. -/
theorem word_of_holds_words {ws : List UInt32} (h : mem.Holds p (ws.flatMap wordBytes)) (i : ℕ)
    (hi : i < ws.length) : mem.word (p + 4 * i) = ws[i] := by
  induction ws generalizing p i with
  | nil => cases hi
  | cons w ws ih =>
    rw [List.flatMap_cons, Memory.holds_append] at h
    cases i with
    | zero => exact Memory.word_of_holds h.1
    | succ i =>
      have := ih h.2 i (by simpa using hi)
      simp only [wordBytes, List.length_cons, List.length_nil] at this
      rw [List.getElem_cons_succ, ← this]
      congr 1
      omega

/-- The bytes of a record in front of others. -/
theorem holds_words_append {ws ws' : List UInt32} :
    mem.Holds p ((ws ++ ws').flatMap wordBytes) ↔
      mem.Holds p (ws.flatMap wordBytes) ∧
        mem.Holds (p + 4 * ws.length) (ws'.flatMap wordBytes) := by
  rw [List.flatMap_append, Memory.holds_append, length_flatMap_wordBytes]

/-- The descriptor of a sub-section is read where it lies. -/
theorem subSectionDescV3_of_holds {sub : SubSectionDescV3}
    (h : mem.Holds p (sub.words.flatMap wordBytes)) : SubSectionDescV3.load mem p = sub := by
  have hword := word_of_holds_words h
  have h0 := hword 0 (by simp [SubSectionDescV3.words])
  have h1 := hword 1 (by simp [SubSectionDescV3.words])
  have h2 := hword 2 (by simp [SubSectionDescV3.words])
  have h3 := hword 3 (by simp [SubSectionDescV3.words])
  have h4 := hword 4 (by simp [SubSectionDescV3.words])
  have h5 := hword 5 (by simp [SubSectionDescV3.words])
  have h6 := hword 6 (by simp [SubSectionDescV3.words])
  have h7 := hword 7 (by simp [SubSectionDescV3.words])
  have h8 := hword 8 (by simp [SubSectionDescV3.words])
  have h9 := hword 9 (by simp [SubSectionDescV3.words])
  have h10 := hword 10 (by simp [SubSectionDescV3.words])
  have h11 := hword 11 (by simp [SubSectionDescV3.words])
  simp only [SubSectionDescV3.words, List.getElem_cons_zero, List.getElem_cons_succ, Nat.mul_zero,
    Nat.add_zero, Nat.reduceMul] at h0 h1 h2 h3 h4 h5 h6 h7 h8 h9 h10 h11
  simp [SubSectionDescV3.load, h0, h1, h2, h3, h4, h5, h6, h7, h8, h9, h10, h11]

/-- The lengths of records in bytes are those of their words. -/
theorem sum_flatMap_lens {β : Type} (lens : β → List ℕ) (words : β → List UInt32)
    (h : ∀ x, (lens x).sum = 4 * (words x).length) (xs : List β) :
    (xs.flatMap lens).sum = 4 * (xs.flatMap words).length := by
  induction xs with
  | nil => rfl
  | cons x xs ih =>
    rw [List.flatMap_cons, List.flatMap_cons, List.sum_append, List.length_append, h, ih]
    omega

/-- Each record is found among the words of a list of records. -/
theorem length_le_flatMap {β : Type} (words : β → List UInt32) {xs : List β} {x : β} (hx : x ∈ xs) :
    (words x).length ≤ (xs.flatMap words).length := by
  have hsub := (List.singleton_sublist.mpr hx).flatMap words
  simpa using hsub.length_le

/-- There are at least as many words as records. -/
theorem length_le_words {β : Type} (words : β → List UInt32) (h : ∀ x, 0 < (words x).length)
    (xs : List β) : xs.length ≤ (xs.flatMap words).length := by
  induction xs with
  | nil => exact Nat.le_refl _
  | cons x xs ih =>
    have := h x
    rw [List.flatMap_cons, List.length_append, List.length_cons]
    omega

/-- Records that lie one behind the other are found. -/
theorem itemsAt_of_holds_words {β : Type} (item : ℕ → β) (lens : β → List ℕ)
    (words : β → List UInt32) (hlens : ∀ x, (lens x).sum = 4 * (words x).length) (xs : List β)
    (hitem : ∀ x ∈ xs, ∀ p, mem.Holds p ((words x).flatMap wordBytes) → item p = x) {n : ℕ}
    (hn : n = xs.length) (h : mem.Holds p ((xs.flatMap words).flatMap wordBytes)) :
    itemsAt item lens n p = xs := by
  rw [List.flatMap_assoc] at h
  rw [hn]
  refine itemsAt_of_holds (fun x => (words x).flatMap wordBytes) (fun x => ?_) hitem h
  rw [length_flatMap_wordBytes, hlens]

/-- A number of records that a word can hold. -/
theorem toNat_ofNat_length {β : Type} (xs : List β) (h : xs.length < 2 ^ 32) :
    (UInt32.ofNat xs.length).toNat = xs.length := by
  rw [UInt32.toNat_ofNat']
  exact Nat.mod_eq_of_lt h

/-- The bytes of a sub-section. -/
theorem SubSectionDescr.sum_lens (d : SubSectionDescr) : d.lens.sum = 4 * d.words.length := by
  have hoffsets := sum_flatMap_lens (fun _ : UInt32 => [4]) (fun w => [w])
    (fun _ => rfl) d.roOffsets
  simp only [SubSectionDescr.lens, SubSectionDescr.words, SubSectionDescV3.words,
    subSectionDescV3Size, List.sum_cons, List.length_append, List.length_cons, List.length_nil,
    hoffsets]
  simp
  omega

/-- The bytes of a static section. -/
theorem StaticSectionDescr.sum_lens (d : StaticSectionDescr) : d.lens.sum = 4 * d.words.length := by
  simp only [StaticSectionDescr.lens, StaticSectionDescr.words, staticSectionDescV3Size,
    List.sum_cons, List.length_append, List.length_cons, List.length_nil,
    sum_flatMap_lens _ _ SubSectionDescr.sum_lens]
  omega

/-- The bytes of a reuse section. -/
theorem ReuseSectionDescr.sum_lens (d : ReuseSectionDescr) : d.lens.sum = 4 * d.words.length := by
  simp only [ReuseSectionDescr.lens, ReuseSectionDescr.words, reuseSectionDescV3Size,
    List.sum_cons, List.length_append, List.length_cons, List.length_nil,
    sum_flatMap_lens _ _ SubSectionDescr.sum_lens]
  omega

/-- A sub-section is found where it lies. -/
theorem subSectionAt_of_holds {d : SubSectionDescr} (hlen : d.words.length < 2 ^ 32)
    (h : mem.Holds p (d.words.flatMap wordBytes)) : subSectionAt mem p = d := by
  obtain ⟨hdesc, hoffsets⟩ := holds_words_append.mp h
  have hload := subSectionDescV3_of_holds hdesc
  have hcnt : d.roOffsets.length < 2 ^ 32 := by
    simp only [SubSectionDescr.words, List.length_append] at hlen
    omega
  have hitems := itemsAt_of_holds_words mem.word (fun _ => [4]) (fun w => [w]) (fun _ => rfl)
    d.roOffsets (fun w _ p hw => Memory.word_of_holds (by simpa using hw))
    (toNat_ofNat_length _ hcnt) (by simpa using hoffsets)
  have hsize : 4 * d.desc.words.length = subSectionDescV3Size := rfl
  rw [hsize] at hitems
  simp only [subSectionAt, hload]
  simp only [SubSectionDescr.desc, hitems]

/-- The sub-sections of a section are found where they lie. -/
theorem subSectionsAt_of_holds {subs : List SubSectionDescr}
    (hlen : (subs.flatMap SubSectionDescr.words).length < 2 ^ 32)
    (h : mem.Holds p ((subs.flatMap SubSectionDescr.words).flatMap wordBytes)) :
    itemsAt (subSectionAt mem) SubSectionDescr.lens (UInt32.ofNat subs.length).toNat p = subs := by
  refine itemsAt_of_holds_words _ _ _ SubSectionDescr.sum_lens _ ?_ ?_ h
  · intro d hd q hq
    exact subSectionAt_of_holds (Nat.lt_of_le_of_lt (length_le_flatMap _ hd) hlen) hq
  · refine toNat_ofNat_length _ (Nat.lt_of_le_of_lt (length_le_words _ (fun d => ?_) subs) hlen)
    simp [SubSectionDescr.words, SubSectionDescV3.words]

/-- A static section is found where it lies. -/
theorem staticSectionAt_of_holds {d : StaticSectionDescr} (hlen : d.words.length < 2 ^ 32)
    (h : mem.Holds p (d.words.flatMap wordBytes)) : staticSectionAt mem p = d := by
  obtain ⟨hdesc, hsubs⟩ := holds_words_append.mp h
  have hword := word_of_holds_words hdesc
  have h0 := hword 0 (by simp)
  have h1 := hword 1 (by simp)
  have h2 := hword 2 (by simp)
  have h3 := hword 3 (by simp)
  simp only [List.getElem_cons_zero, List.getElem_cons_succ, Nat.mul_zero, Nat.add_zero,
    Nat.reduceMul] at h0 h1 h2 h3
  have hitems := subSectionsAt_of_holds (by
    simp only [StaticSectionDescr.words, List.length_append] at hlen
    omega) hsubs
  simp only [List.length_cons, List.length_nil] at hitems
  simp only [staticSectionAt, StaticSectionDescV3.load, h0, h1, h2, h3, staticSectionDescV3Size,
    StaticSectionDescr.desc]
  exact congrArg (StaticSectionDescr.mk _ _ _) hitems

/-- A reuse section is found where it lies. -/
theorem reuseSectionAt_of_holds {d : ReuseSectionDescr} (hlen : d.words.length < 2 ^ 32)
    (h : mem.Holds p (d.words.flatMap wordBytes)) : reuseSectionAt mem p = d := by
  obtain ⟨hdesc, hsubs⟩ := holds_words_append.mp h
  have hword := word_of_holds_words hdesc
  have h0 := hword 0 (by simp)
  have h1 := hword 1 (by simp)
  have h2 := hword 2 (by simp)
  simp only [List.getElem_cons_zero, List.getElem_cons_succ, Nat.mul_zero, Nat.add_zero,
    Nat.reduceMul] at h0 h1 h2
  have hitems := subSectionsAt_of_holds (by
    simp only [ReuseSectionDescr.words, List.length_append] at hlen
    omega) hsubs
  simp only [List.length_cons, List.length_nil] at hitems
  simp only [reuseSectionAt, ReuseSectionDescV3.load, h0, h1, h2, reuseSectionDescV3Size,
    ReuseSectionDescr.desc]
  exact congrArg (ReuseSectionDescr.mk _ _) hitems

/-- A list node is found where it lies. -/
theorem listNodeDesc_of_holds {node : ListNodeDesc}
    (h : mem.Holds p (node.words.flatMap wordBytes)) : ListNodeDesc.load mem p = node := by
  have hword := word_of_holds_words h
  have h0 := hword 0 (by simp [ListNodeDesc.words])
  have h1 := hword 1 (by simp [ListNodeDesc.words])
  have h2 := hword 2 (by simp [ListNodeDesc.words])
  have h3 := hword 3 (by simp [ListNodeDesc.words])
  simp only [ListNodeDesc.words, List.getElem_cons_zero, List.getElem_cons_succ, Nat.mul_zero,
    Nat.add_zero, Nat.reduceMul] at h0 h1 h2 h3
  simp only [ListNodeDesc.load, h0, h1, h2, h3]

/-- The description in a file is the graph that was laid out there. -/
theorem graphAt_of_holds {d : GraphDescr} {linked : Bool} (hlen : (d.words linked).length < 2 ^ 32)
    (hnodes : linked = false → d.nodes = []) (h : mem.Holds p (d.encode linked)) :
    graphAt mem linked p = d := by
  obtain ⟨hhdr, hrest⟩ := holds_words_append.mp h
  obtain ⟨hstatic, hrest⟩ := holds_words_append.mp hrest
  obtain ⟨hreuse, hlist⟩ := holds_words_append.mp hrest
  have hword := word_of_holds_words hhdr
  have h0 := hword 0 (by simp)
  have h1 := hword 1 (by simp)
  have h2 := hword 2 (by simp)
  have h3 := hword 3 (by simp)
  simp only [List.getElem_cons_zero, List.getElem_cons_succ, Nat.mul_zero, Nat.add_zero,
    Nat.reduceMul] at h0 h1 h2 h3
  simp only [GraphDescr.words, List.length_append] at hlen
  have hstatics : itemsAt (staticSectionAt mem) StaticSectionDescr.lens
      (UInt32.ofNat d.staticSections.length).toNat (p + bssHdrV3Size) = d.staticSections := by
    refine itemsAt_of_holds_words _ _ _ StaticSectionDescr.sum_lens _ (fun sec hsec q hq => ?_) ?_
      hstatic
    · have := length_le_flatMap StaticSectionDescr.words hsec
      exact staticSectionAt_of_holds (by omega) hq
    · have := length_le_words StaticSectionDescr.words
        (fun sec => by simp [StaticSectionDescr.words]) d.staticSections
      exact toNat_ofNat_length _ (by omega)
  have hq : p + bssHdrV3Size + (d.staticSections.flatMap StaticSectionDescr.lens).sum =
      p + 4 * 4 + 4 * (d.staticSections.flatMap StaticSectionDescr.words).length := by
    rw [sum_flatMap_lens _ _ StaticSectionDescr.sum_lens]
    rfl
  have hreuses : itemsAt (reuseSectionAt mem) ReuseSectionDescr.lens
      (UInt32.ofNat d.reuseSections.length).toNat
      (p + bssHdrV3Size + (d.staticSections.flatMap StaticSectionDescr.lens).sum) =
        d.reuseSections := by
    rw [hq]
    refine itemsAt_of_holds_words _ _ _ ReuseSectionDescr.sum_lens _ (fun sec hsec q hq => ?_) ?_
      hreuse
    · have := length_le_flatMap ReuseSectionDescr.words hsec
      exact reuseSectionAt_of_holds (by omega) hq
    · have := length_le_words ReuseSectionDescr.words
        (fun sec => by simp [ReuseSectionDescr.words]) d.reuseSections
      exact toNat_ofNat_length _ (by omega)
  have hlistNodes : linked = true → itemsAt (ListNodeDesc.load mem) (fun _ => [listNodeDescSize])
      (mem.word (p + bssHdrV3Size + (d.staticSections.flatMap StaticSectionDescr.lens).sum +
        (d.reuseSections.flatMap ReuseSectionDescr.lens).sum)).toNat
      (p + bssHdrV3Size + (d.staticSections.flatMap StaticSectionDescr.lens).sum +
        (d.reuseSections.flatMap ReuseSectionDescr.lens).sum + linkedListDescSize) = d.nodes := by
    rintro rfl
    rw [if_pos rfl] at hlist hlen
    obtain ⟨hcnt, hlist⟩ := holds_words_append.mp hlist
    have hcnt := word_of_holds_words hcnt 0 (by simp)
    rw [hq, sum_flatMap_lens _ _ ReuseSectionDescr.sum_lens]
    simp only [Nat.mul_zero, Nat.add_zero, List.getElem_cons_zero, List.length_cons,
      List.length_nil, Nat.zero_add] at hcnt
    refine itemsAt_of_holds_words _ _ ListNodeDesc.words (fun _ => rfl) _
      (fun node _ q hq => listNodeDesc_of_holds hq) ?_ hlist
    have := length_le_words ListNodeDesc.words
      (fun node => by simp [ListNodeDesc.words]) d.nodes
    rw [hcnt]
    refine toNat_ofNat_length _ ?_
    rw [List.length_append] at hlen
    omega
  simp only [graphAt, BssHdrV3.load, h0, h1, h2, h3, GraphDescr.header, hstatics, hreuses]
  cases linked with
  | false => rw [if_neg (by simp), ← hnodes rfl]
  | true => rw [if_pos rfl, hlistNodes rfl]

end Found

/-! ## Sorting -/

/-- The ids are `0, …, n - 1` in some order. -/
def IdsPermuted (l : List IoTensorDesc) : Prop :=
  (l.map fun t => t.id.toNat).Perm (List.range l.length)

instance : DecidablePred IdsPermuted := fun _ => inferInstanceAs (Decidable (List.Perm _ _))

/-- The tensors in the order of their ids. -/
def sortById (l : List IoTensorDesc) : List IoTensorDesc :=
  l.mergeSort fun s t => decide (s.id ≤ t.id)

/-- What the loop of `sort_io_tensor` has done to the tensors `l` after the ones in `done`: these
stand at the places of their ids, and the other places are as before. -/
structure Scattered (l done tensors : List IoTensorDesc) : Prop where
  length : tensors.length = l.length
  placed : ∀ t ∈ done, tensors[t.id.toNat]? = some t
  rest : ∀ k, (∀ t ∈ done, t.id.toNat ≠ k) → tensors[k]? = l[k]?

section Sorting

variable {l : List IoTensorDesc}

/-- Tensors with one id are one tensor. -/
theorem IdsPermuted.injective (h : IdsPermuted l) {s t : IoTensorDesc} (hs : s ∈ l) (ht : t ∈ l)
    (hid : s.id.toNat = t.id.toNat) : s = t :=
  List.inj_on_of_nodup_map (h.nodup_iff.mpr List.nodup_range) hs ht hid

/-- An id is a place. -/
theorem IdsPermuted.lt (h : IdsPermuted l) {t : IoTensorDesc} (ht : t ∈ l) :
    t.id.toNat < l.length :=
  List.mem_range.mp (h.mem_iff.mp (List.mem_map_of_mem ht))

/-- One round of the loop. -/
theorem Scattered.step {done rest tensors : List IoTensorDesc} {t : IoTensorDesc}
    (h : IdsPermuted l) (hl : l = done ++ t :: rest) (hs : Scattered l done tensors) :
    Scattered l (done ++ [t])
      (if t.id.toNat ≠ done.length then tensors.set t.id.toNat t else tensors) := by
  have htl : t ∈ l := by simp [hl]
  have hlt := h.lt htl
  -- no tensor before this one has its id, so its place is still as it was
  have hfresh : ∀ s ∈ done, s.id.toNat ≠ t.id.toNat := by
    intro s hsd hid
    have hnodup := h.nodup_iff.mpr List.nodup_range
    rw [hl, List.map_append, List.map_cons, List.nodup_append] at hnodup
    exact hnodup.2.2 _ (List.mem_map_of_mem hsd) _ List.mem_cons_self hid
  by_cases hid : t.id.toNat = done.length
  · rw [if_neg (by simpa using hid)]
    refine ⟨hs.length, fun s hsd => ?_, fun k hk => hs.rest k fun s hsd => hk s (by simp [hsd])⟩
    rcases List.mem_append.mp hsd with hsd | hsd
    · exact hs.placed s hsd
    · obtain rfl := List.mem_singleton.mp hsd
      rw [hs.rest _ hfresh, hid, hl]
      simp
  · rw [if_pos hid]
    refine ⟨by rw [List.length_set, hs.length], fun s hsd => ?_, fun k hk => ?_⟩
    · rcases List.mem_append.mp hsd with hsd | hsd
      · rw [List.getElem?_set_ne (hfresh s hsd).symm]
        exact hs.placed s hsd
      · obtain rfl := List.mem_singleton.mp hsd
        rw [List.getElem?_set_self (by rw [hs.length]; exact hlt)]
    · rw [List.getElem?_set_ne (hk t (by simp))]
      exact hs.rest k fun s hsd => hk s (by simp [hsd])

/-- The loop places all tensors. -/
theorem sortIoTensorFrom_scattered (h : IdsPermuted l) (rest done tensors : List IoTensorDesc)
    (hl : l = done ++ rest) (hs : Scattered l done tensors) :
    ∃ sorted, sortIoTensorFrom l.length done.length rest tensors = (.success, sorted) ∧
      Scattered l l sorted := by
  induction rest generalizing done tensors with
  | nil =>
    rw [List.append_nil] at hl
    exact ⟨tensors, rfl, hl ▸ hs⟩
  | cons t rest ih =>
    have hlt := h.lt (t := t) (by simp [hl])
    rw [sortIoTensorFrom, if_neg (by omega)]
    have hnext := ih (done ++ [t]) _ (by simp [hl]) (hs.step h hl)
    rwa [List.length_append, List.length_singleton] at hnext

/-- No tensor is lost or duplicated. -/
theorem Scattered.perm {tensors : List IoTensorDesc} (h : IdsPermuted l)
    (hs : Scattered l l tensors) :
    l.Perm tensors := by
  have hnodup : l.Nodup := (h.nodup_iff.mpr List.nodup_range).of_map
  have hsubset : l ⊆ tensors := fun t ht => List.mem_of_getElem? (hs.placed t ht)
  exact (List.subperm_of_subset hnodup hsubset).perm_of_length_le hs.length.le

/-- The tensor at a place has its number as id. -/
theorem Scattered.ids {tensors : List IoTensorDesc} (h : IdsPermuted l)
    (hs : Scattered l l tensors) (k : ℕ) (hk : k < tensors.length) : tensors[k].id.toNat = k := by
  have hmem : k ∈ l.map fun t => t.id.toNat := by
    rw [h.mem_iff, List.mem_range]
    exact hs.length ▸ hk
  obtain ⟨t, ht, rfl⟩ := List.mem_map.mp hmem
  have := hs.placed t ht
  rw [List.getElem?_eq_getElem hk] at this
  rw [Option.some.inj this]

/-- When every tensor stands at the place of its id, the tensors are sorted. -/
theorem Scattered.eq_sortById {tensors : List IoTensorDesc} (h : IdsPermuted l)
    (hs : Scattered l l tensors) : tensors = sortById l := by
  have hperm := hs.perm h
  have hplace := hs.ids h
  have hsorted : tensors.Pairwise fun s t => s.id ≤ t.id := by
    rw [List.pairwise_iff_getElem]
    intro i j hi hj hij
    rw [UInt32.le_iff_toNat_le, hplace i hi, hplace j hj]
    exact hij.le
  have hmerge : (sortById l).Pairwise fun s t => s.id ≤ t.id := by
    refine (List.pairwise_mergeSort ?_ ?_ l).imp fun hle => of_decide_eq_true hle
    · intro s t u hst htu
      simp only [decide_eq_true_eq] at hst htu ⊢
      exact UInt32.le_trans hst htu
    · intro s t
      simpa using UInt32.le_total s.id t.id
  refine List.Perm.eq_of_pairwise (fun s t hst ht h₁ h₂ => ?_) hsorted hmerge
    (hperm.symm.trans (List.mergeSort_perm l _).symm)
  refine h.injective (hperm.mem_iff.mpr hst) ((List.mergeSort_perm l _).mem_iff.mp ht) ?_
  exact congrArg UInt32.toNat (UInt32.le_antisymm h₁ h₂)

/-- `sort_io_tensor` sorts tensors whose ids are `0, …, n - 1`. -/
theorem sortIoTensor_sorts (h : IdsPermuted l) : sortIoTensor l = (.success, sortById l) := by
  have hstart : Scattered l [] l := ⟨rfl, by simp, fun _ _ => rfl⟩
  obtain ⟨sorted, hsort, hs⟩ := sortIoTensorFrom_scattered h l [] l rfl hstart
  rw [sortIoTensor, ← hs.eq_sortById h]
  exact hsort

end Sorting

/-! ## The decoded graph -/

/-- The pages that hold a number of bytes. -/
def pages (bytes : UInt32) : UInt32 := .ofNat ((bytes.toNat + 4095) / 4096)

/-- `ALIGN_ADDR` rounds up to pages unless the sum wraps. -/
theorem alignAddr_eq_pages {bytes : UInt32} (h : bytes ≤ 0xFFFFF000) :
    alignAddr bytes = pages bytes := by
  have hle : bytes.toNat ≤ 4294963200 := UInt32.le_iff_toNat_le.mp h
  have hsum : (bytes + 4096 - 1).toNat = bytes.toNat + 4095 := by
    have : bytes + 4096 - 1 = bytes + 4095 := by
      rw [UInt32.sub_eq_add_neg, UInt32.add_assoc]
      rfl
    rw [this, UInt32.toNat_add]
    exact Nat.mod_eq_of_lt (by simp; omega)
  have hand : ∀ n < 2 ^ 32, (n &&& 4294963200) / 4096 = n / 4096 := by
    intro n hn
    have := Nat.shiftRight_and_distrib (a := n) (b := 4294963200) (i := 12)
    rw [Nat.shiftRight_eq_div_pow, Nat.shiftRight_eq_div_pow, Nat.shiftRight_eq_div_pow] at this
    rw [show (4096 : ℕ) = 2 ^ 12 by rfl, this, show 4294963200 / 2 ^ 12 = 2 ^ 20 - 1 by rfl,
      Nat.and_two_pow_sub_one_eq_mod]
    exact Nat.mod_eq_of_lt (by omega)
  rw [← UInt32.toNat_inj, pages, UInt32.toNat_ofNat', alignAddr, alignPageBytes, UInt32.toNat_div,
    UInt32.toNat_and, hsum, show (~~~(4096 - 1) : UInt32).toNat = 4294963200 by decide,
    show (4096 : UInt32).toNat = 4096 by decide, hand _ (by omega)]
  exact (Nat.mod_eq_of_lt (by omega)).symm

/-- A static section as the driver loads it. -/
def StaticSectionDescr.decoded (d : StaticSectionDescr) (dataSrc : ℕ) : SectionDesc where
  loadSrc := dataSrc + d.offsetInFile.toNat
  size := d.size
  alignInPage := pages d.alignBytes
  subSections := d.subSections.map (·.offsetInSection)

/-- A reuse section as the driver allocates it. -/
def ReuseSectionDescr.decoded (d : ReuseSectionDescr) : SectionDesc where
  loadSrc := 0
  size := d.size
  alignInPage := pages d.alignBytes
  subSections := d.subSections.map (·.offsetInSection)

/-- The entries of the parameter map for the `i`-th section. -/
def sectionEntries (loadType : ParamMapLoadType) (i : ℕ) (subs : List SubSectionDescr) :
    List ParamMapLoadDesc :=
  (subs.mapIdx fun j sub => sub.entries loadType i j).flatten

/-- The tensors of a type, in file order. -/
def GraphDescr.tensors (d : GraphDescr) (type : UInt32) : List IoTensorDesc :=
  (d.reuseSections.mapIdx fun i sec => sec.subSections.flatMap (·.tensors type i)).flatten

/-- The entries of the parameter map, in file order. -/
def GraphDescr.entries (d : GraphDescr) : List ParamMapLoadDesc :=
  (d.staticSections.mapIdx fun i sec => sectionEntries .static i sec.subSections).flatten ++
    (d.reuseSections.mapIdx fun i sec => sectionEntries .reuse i sec.subSections).flatten

/-- The graph info of a graph, where `info` is what the file header says. -/
def GraphDescr.decoded (d : GraphDescr) (info : GraphInfo) : GraphInfo :=
  { info with
    pbufTempl := { info.pbufTempl with
      staticSections := d.staticSections.map (·.decoded info.pbufTempl.dataSrc) }
    tbufTempl := { info.tbufTempl with
      stackSize := d.stackSize
      stackAlignInPage := pages d.stackAlignBytes
      reuseSections := d.reuseSections.map ReuseSectionDescr.decoded }
    inputs := sortById (d.tensors sectionTypeInput)
    outputs := sortById (d.tensors sectionTypeOutput)
    interDumps := d.tensors sectionTypeInterDump
    pdata := d.tensors sectionTypeProfData
    plogData := d.tensors sectionTypePlogData
    paramMap := d.entries
    dcrMap := d.nodes }

/-- A graph that the format can represent and the driver supports. -/
structure GraphDescr.WellFormed (d : GraphDescr) (linked : Bool) : Prop where
  stackSize : d.stackSize ≠ 0
  stackAlign : d.stackAlignBytes ≠ 0
  reuse : d.reuseSections ≠ []
  stackAlignLe : d.stackAlignBytes ≤ 0xFFFFF000
  staticAlignLe : ∀ sec ∈ d.staticSections, sec.alignBytes ≤ 0xFFFFF000
  reuseAlignLe : ∀ sec ∈ d.reuseSections, sec.alignBytes ≤ 0xFFFFF000
  inputs : IdsPermuted (d.tensors sectionTypeInput)
  outputs : IdsPermuted (d.tensors sectionTypeOutput)
  nodes : d.nodes ≠ [] ↔ linked = true

/-! ## What the sections add, field by field -/

section Fields

variable {β : Type} {field : Found → List β} (d : GraphDescr) (dataSrc : ℕ)

/-- What is added to a field of a graph info is appended. -/
structure Found.IsField (field : Found → List β) : Prop where
  nil : field {} = []
  append : ∀ x y, field (x.append y) = field x ++ field y

/-- What a list of parts adds to a field is what they add one after the other. -/
theorem Found.IsField.concat {α : Type} (h : Found.IsField field) (f : ℕ → α → Found) (l : List α) :
    field (Found.concat (l.mapIdx f)) = (l.mapIdx fun i x => field (f i x)).flatten := by
  induction l generalizing f with
  | nil => exact h.nil
  | cons x l ih =>
    rw [List.mapIdx_cons, Found.concat_cons, h.append, ih, List.mapIdx_cons, List.flatten_cons]

/-- What the sections of a graph add to a field. -/
theorem Found.IsField.found (h : Found.IsField field) :
    field (d.found dataSrc) =
      (d.staticSections.mapIdx fun i sec =>
        (sec.subSections.mapIdx fun j sub =>
          field { paramMap := sub.entries .static i j }).flatten ++
            field { staticSections := [sec.sectionDesc dataSrc] }).flatten ++
        (d.reuseSections.mapIdx fun i sec =>
          (sec.subSections.mapIdx fun j sub =>
            field (sub.tensorFound i) ++ field { paramMap := sub.entries .reuse i j }).flatten ++
              field { reuseSections := [sec.sectionDesc] }).flatten := by
  simp only [GraphDescr.found, StaticSectionDescr.found, ReuseSectionDescr.found,
    h.append, h.concat]

/-- A map that does not use the places. -/
theorem mapIdx_const {α : Type} (f : α → β) (l : List α) : (l.mapIdx fun _ x => f x) = l.map f := by
  induction l with
  | nil => rfl
  | cons x l ih => rw [List.mapIdx_cons, ih, List.map_cons]

/-- A field of tensors has the tensors of its type. -/
theorem Found.IsField.tensors {field : Found → List IoTensorDesc} (h : Found.IsField field)
    {type : UInt32} (htype : ∀ (sub : SubSectionDescr) i,
      field (sub.tensorFound i) = sub.tensors type i)
    (hmap : ∀ entries, field { paramMap := entries } = [])
    (hstatic : ∀ sections, field { staticSections := sections } = [])
    (hreuse : ∀ sections, field { reuseSections := sections } = []) :
    field (d.found dataSrc) = d.tensors type := by
  rw [h.found]
  simp only [htype, hmap, hstatic, hreuse, List.append_nil, mapIdx_const, GraphDescr.tensors,
    List.flatMap_def]
  simp

/-- Parts that add one item each. -/
theorem flatten_map_singleton {α : Type} (f : α → β) (l : List α) :
    (l.map fun x => [f x]).flatten = l.map f := by
  rw [← List.flatMap_def, ← List.map_eq_flatMap]

/-- The static sections of a graph are in order. -/
theorem GraphDescr.found_staticSections :
    (d.found dataSrc).staticSections = d.staticSections.map (·.sectionDesc dataSrc) := by
  have hfield : Found.IsField Found.staticSections := ⟨rfl, fun _ _ => rfl⟩
  rw [hfield.found]
  simp [SubSectionDescr.tensorFound, mapIdx_const, flatten_map_singleton]

/-- The reuse sections of a graph are in order. -/
theorem GraphDescr.found_reuseSections :
    (d.found dataSrc).reuseSections = d.reuseSections.map ReuseSectionDescr.sectionDesc := by
  have hfield : Found.IsField Found.reuseSections := ⟨rfl, fun _ _ => rfl⟩
  rw [hfield.found]
  simp [SubSectionDescr.tensorFound, mapIdx_const, flatten_map_singleton]

/-- The entries of the parameter map are in order. -/
theorem GraphDescr.found_paramMap : (d.found dataSrc).paramMap = d.entries := by
  have hfield : Found.IsField Found.paramMap := ⟨rfl, fun _ _ => rfl⟩
  rw [hfield.found]
  simp [SubSectionDescr.tensorFound, GraphDescr.entries, sectionEntries]

/-- The graph info of a well-formed description, when the file header says `info`. -/
theorem GraphDescr.info_eq_decoded {linked : Bool} (h : d.WellFormed linked) (header : BinHdr)
    (graph : ℕ) (size : UInt32) :
    d.info (header.info graph size) = d.decoded (header.info graph size) := by
  have hinputs : Found.IsField Found.inputs := ⟨rfl, fun _ _ => rfl⟩
  have houtputs : Found.IsField Found.outputs := ⟨rfl, fun _ _ => rfl⟩
  have hdumps : Found.IsField Found.interDumps := ⟨rfl, fun _ _ => rfl⟩
  have hpdata : Found.IsField Found.pdata := ⟨rfl, fun _ _ => rfl⟩
  have hplog : Found.IsField Found.plogData := ⟨rfl, fun _ _ => rfl⟩
  have hunsorted : d.unsorted (header.info graph size) =
      { d.decoded (header.info graph size) with
        inputs := d.tensors sectionTypeInput, outputs := d.tensors sectionTypeOutput } := by
    have hstatic : d.staticSections.map (·.sectionDesc (header.info graph size).pbufTempl.dataSrc) =
        d.staticSections.map (·.decoded (header.info graph size).pbufTempl.dataSrc) :=
      List.map_congr_left fun sec hsec => by
        rw [StaticSectionDescr.sectionDesc, alignAddr_eq_pages (h.staticAlignLe sec hsec),
          StaticSectionDescr.decoded]
    have hreuse : d.reuseSections.map ReuseSectionDescr.sectionDesc =
        d.reuseSections.map ReuseSectionDescr.decoded :=
      List.map_congr_left fun sec hsec => by
        rw [ReuseSectionDescr.sectionDesc, alignAddr_eq_pages (h.reuseAlignLe sec hsec),
          ReuseSectionDescr.decoded]
    simp only [GraphDescr.unsorted, GraphInfo.add, GraphInfo.withStack, GraphDescr.decoded,
      d.found_staticSections, d.found_reuseSections, d.found_paramMap, hstatic, hreuse,
      alignAddr_eq_pages h.stackAlignLe,
      hinputs.tensors d _ (fun _ _ => rfl) (fun _ => rfl) (fun _ => rfl) fun _ => rfl,
      houtputs.tensors d _ (fun _ _ => rfl) (fun _ => rfl) (fun _ => rfl) fun _ => rfl,
      hdumps.tensors d _ (fun _ _ => rfl) (fun _ => rfl) (fun _ => rfl) fun _ => rfl,
      hpdata.tensors d _ (fun _ _ => rfl) (fun _ => rfl) (fun _ => rfl) fun _ => rfl,
      hplog.tensors d _ (fun _ _ => rfl) (fun _ => rfl) (fun _ => rfl) fun _ => rfl]
    rfl
  rw [GraphDescr.info, sortIoTensors, hunsorted]
  simp only [sortIoTensor_sorts h.outputs, sortIoTensor_sorts h.inputs]
  rfl

end Fields

/-! ## Decoding -/

section Decoding

variable {d : GraphDescr} {linked : Bool} {mem : Memory}

/-- A part of a file is found at its place. -/
theorem holds_of_prefix_drop {graph k : ℕ} {file bytes : List UInt8} (hfile : mem.Holds graph file)
    (h : bytes <+: file.drop k) : mem.Holds (graph + k) bytes := by
  intro i hi
  have hdrop := h.getElem hi
  have hlen := h.length_le
  rw [List.length_drop] at hlen
  rw [hdrop, List.getElem_drop, Nat.add_assoc]
  exact hfile (k + i) (by omega)

/-- The records of a graph and its bss header are in its bss section. -/
theorem GraphDescr.sum_lens_le (d : GraphDescr) (linked : Bool) :
    bssHdrV3Size + (d.lens linked).sum ≤ (d.encode linked).length := by
  have hstatic := sum_flatMap_lens _ _ StaticSectionDescr.sum_lens d.staticSections
  have hreuse := sum_flatMap_lens _ _ ReuseSectionDescr.sum_lens d.reuseSections
  rw [GraphDescr.encode, length_flatMap_wordBytes, GraphDescr.words, GraphDescr.lens,
    GraphDescr.sectionLens, List.sum_append, List.sum_append, hstatic, hreuse]
  cases linked with
  | false =>
    simp [bssHdrV3Size]
    omega
  | true =>
    simp [bssHdrV3Size, linkedListDescSize]
    omega

/-- The bss header of a well-formed graph is accepted. -/
theorem GraphDescr.WellFormed.header_ok (h : d.WellFormed linked)
    (hlen : (d.words linked).length < 2 ^ 32) : d.header.Ok := by
  refine ⟨h.stackSize, h.stackAlign, fun hzero => h.reuse (List.eq_nil_iff_length_eq_zero.mpr ?_)⟩
  have hcnt := length_le_words ReuseSectionDescr.words
    (fun sec => by simp [ReuseSectionDescr.words]) d.reuseSections
  simp only [GraphDescr.words, List.length_append] at hlen
  have := toNat_ofNat_length d.reuseSections (by omega)
  rw [← this]
  exact congrArg UInt32.toNat hzero

/-- **Decoding undoes encoding.**  A graph that lies in the file where the header says, within the
size of the bss section, is what `parse_bss_section` returns. -/
theorem parseBssSection_encode (d : GraphDescr) (header : BinHdr) (mem : Memory) (graph : ℕ)
    (size bssSize : UInt32) (p : ℕ) (file : List UInt8) (hfile : mem.Holds graph file)
    (hd : d.WellFormed (header.info graph size).linked)
    (hsize : (d.encode (header.info graph size).linked).length ≤ bssSize.toNat)
    (hinside : d.encode (header.info graph size).linked <+: file.drop header.bssOffset.toNat) :
    (parseBssSection mem (header.info graph size) bssSize p).value =
      .ok (d.decoded (header.info graph size)) := by
  have hholds := holds_of_prefix_drop hfile hinside
  have hlen : (d.words (header.info graph size).linked).length < 2 ^ 32 := by
    rw [GraphDescr.encode, length_flatMap_wordBytes] at hsize
    have := bssSize.toNat_lt
    omega
  have hfound : graphAt mem (header.info graph size).linked (header.info graph size).bssSrc = d :=
    graphAt_of_holds hlen (fun hlinked => by simpa [hlinked] using hd.nodes) hholds
  have hok : (BssHdrV3.load mem (header.info graph size).bssSrc).Ok := by
    rw [← @graphAt_header mem _ (header.info graph size).linked, hfound]
    exact hd.header_ok hlen
  have hbelow : ∀ r ∈ spans ((header.info graph size).bssSrc + bssHdrV3Size)
      (d.lens (header.info graph size).linked),
      below ((header.info graph size).bssSrc + bssHdrV3Size + bssSize.toNat) r = true := by
    intro r hr
    have hend := (le_of_mem_spans hr).2
    have hle := d.sum_lens_le (header.info graph size).linked
    have hpos : 0 < bssHdrV3Size := by decide
    exact decide_eq_true (by omega)
  obtain ⟨hvalue, -⟩ := @parseBssSection_pass _ _ bssSize p hok (by rwa [hfound])
  rw [hvalue, hfound, if_neg, GraphDescr.info_eq_decoded d hd]
  rintro ⟨hlinked, hnil⟩
  exact hd.nodes.mpr hlinked hnil

/-- A graph with a static section, two outputs in the wrong order, and a linked list of one node. -/
def sampleGraph : GraphDescr where
  stackSize := 1024
  stackAlignBytes := 4096
  staticSections := [{
    offsetInFile := 0, size := 64, alignBytes := 1
    subSections := [{
      offsetInSection := 16, size := 32, type := 5, id := 0, dtype := 2, layout := 0
      shape := ⟨1, 1, 1, 32⟩, addrMask := 0xFFFFFFFF, roOffsets := [8, 24] }] }]
  reuseSections := [{
    size := 128, alignBytes := 4097
    subSections := [
      { offsetInSection := 0, size := 64, type := sectionTypeOutput, id := 1,
        dtype := 2, layout := 0
        shape := ⟨1, 1, 1, 64⟩, addrMask := 0xFFFFFFFF, roOffsets := [40] },
      { offsetInSection := 64, size := 64, type := sectionTypeOutput, id := 0,
        dtype := 2, layout := 0
        shape := ⟨1, 1, 1, 64⟩, addrMask := 0xFFFFFFFF, roOffsets := [] }] }]
  nodes := [⟨1, 2, 3, 4⟩]

/-- A header of version 4 with the linked-list flag, and the bss section right behind it. -/
def sampleHeader : BinHdr where
  ident := magic
  device := 0
  version := 0x04000000
  buildVersion := 0
  hdrsize := 104
  filesize := 400
  flag := 0x10
  entry := 0
  textOffset := 0
  textSize := 0
  rodataOffset := 0
  rodataSize := 0
  dcrOffset := 0
  dcrSize := 0
  dataOffset := 0
  dataSize := 0
  bssOffset := 104
  bssSize := 248

/-- The sample graph behind a header is decoded. -/
theorem parseBssSection_encode_sample :
    (parseBssSection (Memory.ofBytes 4096 (List.replicate 104 0 ++ sampleGraph.encode true))
      (sampleHeader.info 4096 400) 248 0).value =
        .ok (sampleGraph.decoded (sampleHeader.info 4096 400)) := by
  refine parseBssSection_encode sampleGraph sampleHeader _ 4096 400 248 0 _
    (Memory.ofBytes_holds _ _) ?_ ?_ ?_
  · exact ⟨by decide, by decide, List.cons_ne_nil _ _, by decide, by decide, by decide, by decide,
      by decide, by decide⟩
  · rw [GraphDescr.encode, length_flatMap_wordBytes]
    decide
  · have hdrop : (List.replicate 104 (0 : UInt8) ++ sampleGraph.encode true).drop 104 =
        sampleGraph.encode true := List.drop_left' List.length_replicate
    exact hdrop ▸ List.prefix_refl _

end Decoding

end Aipu
