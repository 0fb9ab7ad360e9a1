import LayerGraph.Proofs.Container.Accepted

/-! # What reading gives for any bytes

  Main statement: reading ends, whatever the bytes are. It ends with an error about a place in the
  bytes, or with a graph that is coherent and complete, whose layers are the records in their order
  (`Graph.ends_deserialize`).

  Two things are carried from record to record. The cursor stays in the bytes (`ends_loadLayer`);
  and the records read so far, with nothing but the graph that comes out in the end for the
  descriptors they ask for, are the layers so far (`exists_records`).
-/

namespace LayerGraph

namespace Container

open Codec

variable {bytes : List UInt8} {features : Features} {g : Graph} {supply supply' : GuidSupply}
variable {s s' : Loading}

/-! ### Places in a container -/

theorem stays_header (bytes : List UInt8) : readHeader.StaysIn bytes fun _ => True := by
  refine (Read.StaysIn.bytes _).bind fun mark _ => ?_
  refine Read.StaysIn.check (Nat.zero_le _) ?_
  refine Read.StaysIn.offset fun start hstart => (uint32_plain.stays bytes).bind fun version _ => ?_
  split
  · exact .throw hstart
  · exact .pure trivial

theorem stays_entries (count : Nat) (seen : List UInt16) (f : Features) (bytes : List UInt8) :
    (Features.readEntries count seen f).StaysIn bytes fun _ => True := by
  induction count generalizing seen f with
  | zero => exact .pure trivial
  | succ count ih =>
    have hentry : (Features.readEntry seen f).StaysIn bytes fun _ => True := by
      refine Read.StaysIn.offset fun start hstart => ?_
      refine (entry_plain.stays bytes).bind fun entry _ => ?_
      refine Read.StaysIn.check hstart ?_
      exact Read.StaysIn.check hstart (.pure trivial)
    exact hentry.bind fun entry _ => ih entry.1 entry.2

theorem stays_preamble (bytes : List UInt8) : readPreamble.StaysIn bytes fun _ => True := by
  refine (stays_header bytes).bind fun _ _ => ?_
  have hfeatures : Features.read.StaysIn bytes fun _ => True :=
    (length_stays 6 bytes).bind fun count _ => stays_entries count [] {} bytes
  exact hfeatures.bind fun features _ => (length_stays 18 bytes).map

/-- A record that is refused is refused at a place in the bytes, and so is its layer. -/
theorem ends_loadLayer (hs : s.cursor.In bytes) :
    Build.Ends (ContainerError.In bytes) (fun s' _ => s'.cursor.In bytes)
      ((loadLayer features s).run supply) := by
  apply Build.Ends.bind_ofExcept (stays_record features s.numbering s.graph bytes s.cursor hs)
  rintro ⟨r, cursor⟩ _ ⟨hcursor, hoffset⟩
  have hadd : Build.Ends (ContainerError.In bytes) (fun _ _ => True)
      ((atOffset r.offset (addRecord s.graph r)).run supply) :=
    Build.Ends.adaptExcept fun cause => hoffset
  exact hadd.bind fun added t _ => .ok hcursor

theorem ends_loadLayers {count : Nat} (hs : s.cursor.In bytes) :
    Build.Ends (ContainerError.In bytes) (fun s' _ => s'.cursor.In bytes)
      ((loadLayers features count s).run supply) := by
  induction count generalizing s supply with
  | zero => exact .ok hs
  | succ count ih => exact (ends_loadLayer hs).bind fun s₁ t hs₁ => ih hs₁

theorem ends_boundaryBinding {offset : Nat} (hoffset : offset ≤ bytes.length) (id : Int32) :
    Except.Ends (ContainerError.In bytes) (fun _ => True)
      (boundaryBinding features s offset id) := by
  unfold boundaryBinding
  split
  · exact .ok trivial
  · dsimp only
    split
    · exact .ok trivial
    · exact .error hoffset

theorem ends_loadBoundary {direction : Direction} (hs : s.cursor.In bytes) :
    Except.Ends (ContainerError.In bytes) (fun s' => s'.cursor.In bytes)
      (loadBoundary features direction s) := by
  apply (int32s_plain.stays bytes s.cursor hs).bind
  intro step _ hstep
  have hbinding (id : Int32) : Except.Ends (ContainerError.In bytes) (fun _ => True)
      (boundaryBinding features s s.cursor.offset id) := ends_boundaryBinding hs.offset_le id
  apply (Except.Ends.mapM fun id _ => hbinding id).bind
  intro order _ _
  split
  · exact .ok hstep.1
  · exact .error hs.offset_le

theorem ends_checkEnd (hs : s.cursor.In bytes) :
    Except.Ends (ContainerError.In bytes) (fun _ => True) (checkEnd s) := by
  unfold checkEnd
  split
  · split
    · exact .ok trivial
    · exact .error hs.offset_le
  · exact .error hs.offset_le

/-- Reads everything but the end. -/
def load (bytes : List UInt8) : Build ContainerError Loading := do
  let ((features, count), cursor) ← Build.ofExcept (readPreamble.run (.start bytes))
  let s ← loadLayers features count ⟨cursor, [], .empty⟩
  let s ← Build.ofExcept (loadBoundary features .input s)
  Build.ofExcept (loadBoundary features .output s)

theorem deserialize_eq_load (bytes : List UInt8) :
    Graph.deserialize bytes = load bytes >>= fun s => Build.ofExcept (checkEnd s) := by
  simp only [Graph.deserialize, load, bind_assoc]

theorem ends_load (bytes : List UInt8) (supply : GuidSupply) :
    Build.Ends (ContainerError.In bytes) (fun s _ => s.cursor.In bytes)
      ((load bytes).run supply) := by
  apply Build.Ends.bind_ofExcept (stays_preamble bytes _ (Cursor.start_in bytes))
  intro step _ hstep
  apply Build.Ends.bind (ends_loadLayers (s := ⟨step.2, [], .empty⟩) hstep.1)
  intro s t hs
  apply Build.Ends.bind_ofExcept (ends_loadBoundary hs)
  intro s₁ _ hs₁
  exact Build.Ends.ofExcept (ends_loadBoundary hs₁)

/-- No place outside the bytes is come to. -/
theorem ends_in_bytes (bytes : List UInt8) (supply : GuidSupply) :
    Build.Ends (ContainerError.In bytes) (fun _ _ => True)
      ((Graph.deserialize bytes).run supply) := by
  rw [deserialize_eq_load]
  apply (ends_load bytes supply).bind
  intro s t hs
  exact Build.Ends.ofExcept (ends_checkEnd hs)

/-! ### The records of a container -/

/-- Reads so many records behind those that are numbered. Some of them ask for the descriptor of a
    slot that they read, which is looked up in the graph. -/
def readRecords (features : Features) (g : Graph) :
    (numbering : Numbering) → (count : Nat) → Read (List LayerRecord)
  | _, 0 => return []
  | numbering, count + 1 => do
    let r ← readRecord features numbering g
    let rest ← readRecords features g ((r.number, numbering.length) :: numbering) count
    return r :: rest

/-- The layers that are numbered when such records have been read. -/
def numberAll (numbering : Numbering) (records : List LayerRecord) : Numbering :=
  records.foldl (fun numbering r => (r.number, numbering.length) :: numbering) numbering

/-- A record looks up nothing but descriptors of layers that have a number. -/
theorem readRecord_congr {numbering : Numbering} {g g' : Graph}
    (h : ∀ number layer, numbering.lookup number = some layer →
      ∀ slot, g.info? ⟨layer, slot⟩ = g'.info? ⟨layer, slot⟩) (c : Cursor) :
    (readRecord features numbering g).run c = (readRecord features numbering g').run c := by
  refine Read.run_bind_congr fun start c₁ _ => Read.run_bind_congr fun tag c₂ _ => ?_
  refine Read.run_check_congr ?_
  refine Read.run_bind_congr fun numberStart c₃ _ => Read.run_bind_congr fun number c₄ _ => ?_
  refine Read.run_check_congr ?_
  refine Read.run_bind_congr fun name c₅ _ => Read.run_bind_congr fun inputCount c₆ _ => ?_
  refine Read.run_bind_congr fun inputs c₇ hinputs => ?_
  refine Read.run_bind_congr fun outputCount c₈ _ => Read.run_bind_congr fun outputs c₉ _ => ?_
  -- What the record reads was found by a number, so the descriptors are the same.
  have hfirst : inputs.head?.bind g.info? = inputs.head?.bind g'.info? := by
    obtain ⟨-, -, -, -, hnumbered⟩ := yields_inputs 0 inputCount c₆ inputs c₇ hinputs
    cases inputs with
    | nil => rfl
    | cons p rest =>
      obtain ⟨number, hlookup⟩ := hnumbered p List.mem_cons_self
      exact h number p.layer hlookup p.index
  rw [hfirst]

/-- Numbers are given to layers that were read, one to each. -/
structure Loading.Numbered (s : Loading) : Prop where
  length : s.numbering.length = s.graph.layers.length
  lt : ∀ number layer, s.numbering.lookup number = some layer → layer < s.graph.layers.length

theorem numbered_start (c : Cursor) : Loading.Numbered ⟨c, [], .empty⟩ where
  length := rfl
  lt := nofun

theorem Loading.Numbered.next {r : LayerRecord} (h : s.Numbered)
    (hadded : RecordAdded features s r s') : s'.Numbered where
  length := by
    rw [hadded.numbering, hadded.recorded.length, List.length_cons, h.length]
  lt := by
    intro number layer hlookup
    rw [hadded.numbering, List.lookup_cons] at hlookup
    rw [hadded.recorded.length]
    split at hlookup
    · cases hlookup
      exact Nat.lt_succ_self _
    · have hlt := h.lt number layer hlookup
      lia

/-- The records that are read are the layers that are added. -/
theorem exists_records {count : Nat} (hs : Session.Sound ⟨s.graph, supply⟩) (hnum : s.Numbered)
    (hload : (loadLayers features count s).run supply = .ok s' supply')
    (hg : g.content? = s'.graph.content?) :
    ∃ records, (readRecords features g s.numbering count).run s.cursor = .ok (records, s'.cursor) ∧
      records.length = count ∧ s'.numbering = numberAll s.numbering records ∧
      ∀ id, g.content? id = if id < s.graph.layers.length then s.graph.content? id
        else records[id - s.graph.layers.length]?.map LayerRecord.content := by
  induction count generalizing s supply with
  | zero =>
    obtain ⟨rfl, rfl⟩ := Build.pure_eq_ok_iff.mp hload
    refine ⟨[], rfl, rfl, rfl, fun id => ?_⟩
    rw [hg]
    split
    · rfl
    · next hid => exact Graph.content?_eq_none_iff.mpr (Nat.le_of_not_lt hid)
  | succ count ih =>
    obtain ⟨s₁, t, hstep, hload⟩ := Build.bind_eq_ok_iff.mp hload
    obtain ⟨r, -, hadded, hs₁⟩ := loadLayer_eq_ok hs hstep
    obtain ⟨records, hread, hlength, hnumbering, hcontent⟩ := ih hs₁ (hnum.next hadded) hload
    have hlayers := hadded.recorded.length
    have hrecorded := hadded.recorded.content?
    -- The layers before the record are the same in the end, so it finds the same descriptors.
    have hbefore (id : LayerId) (hid : id < s.graph.layers.length) :
        g.content? id = s.graph.content? id := by
      rw [hcontent, if_pos (by lia), hrecorded, if_neg (Nat.ne_of_lt hid)]
    have hhead : (readRecord features s.numbering g).run s.cursor = .ok (r, s₁.cursor) := by
      rw [← hadded.read]
      apply readRecord_congr
      intro number layer hlookup slot
      rw [Graph.info?_eq_content?, Graph.info?_eq_content?,
        hbefore layer (hnum.lt number layer hlookup)]
    rw [hadded.numbering, ← hnum.length] at hread hnumbering
    refine ⟨r :: records, ?_, congrArg (· + 1) hlength, hnumbering, fun id => ?_⟩
    · exact Read.bind_eq_ok_iff.mpr ⟨r, s₁.cursor, hhead,
        Read.bind_eq_ok_iff.mpr ⟨records, s'.cursor, hread, rfl⟩⟩
    · by_cases hid : id < s.graph.layers.length
      · rw [if_pos hid, hbefore id hid]
      · rw [if_neg hid, hcontent]
        by_cases hlast : id = s.graph.layers.length
        · rw [if_pos (by lia), hrecorded, if_pos hlast, hlast, Nat.sub_self]
          rfl
        · have hsub : id - s.graph.layers.length = id - s₁.graph.layers.length + 1 := by lia
          rw [if_neg (by lia), hsub, List.getElem?_cons_succ]

/-- The layers of the graph are the records of the bytes, in their order. -/
def HoldsRecords (bytes : List UInt8) (g : Graph) : Prop :=
  ∃ features count start records stop,
    readPreamble.run (.start bytes) = .ok ((features, count), start) ∧
    (readRecords features g [] count).run start = .ok (records, stop) ∧ stop.In bytes ∧
    g.layers.length = count ∧ ∀ k, g.content? k = records[k]?.map LayerRecord.content

theorem holdsRecords_of_deserialize (h : (Graph.deserialize bytes).run supply = .ok g supply') :
    HoldsRecords bytes g := by
  obtain ⟨features, count, start, s, s₁, s₂, hpreamble, hlayers, hload₁, hload₂, hend⟩ :=
    deserialize_parts h
  obtain ⟨hs, hlength⟩ :=
    (gathered_empty (decide (features.weightsLayout = 0)) supply).loadLayers hlayers
  -- What comes behind the records does not change the layers.
  obtain ⟨inputs, -, hreordered₁⟩ := reordered_of_loadBoundary hs.sound.coherent hload₁
  obtain ⟨outputs, -, hreordered₂⟩ := reordered_of_loadBoundary hreordered₁.coherent hload₂
  obtain ⟨rfl, -, -⟩ := checkEnd_eq_ok hend
  have hsame : s₂.graph.layers = s.graph.layers := hreordered₂.layers.trans hreordered₁.layers
  obtain ⟨records, hread, -, -, hrecords⟩ := exists_records (Session.sound_start supply)
    (numbered_start start) hlayers (Graph.content?_of_layers hsame)
  have hstart : start.In bytes :=
    ((stays_preamble bytes _ (Cursor.start_in bytes)).post_of_ok hpreamble).1
  have hstop := (ends_loadLayers (s := ⟨start, [], .empty⟩) hstart).post_of_ok hlayers
  refine ⟨features, count, start, records, s.cursor, hpreamble, hread, hstop, ?_, ?_⟩
  · rw [hsame, hlength]
    simp [Graph.empty]
  · intro k
    rw [hrecords]
    rfl

/-! ### Whatever the bytes are -/

/-- A graph that was read from the bytes. -/
structure Decoded (bytes : List UInt8) (g : Graph) : Prop where
  coherent : g.Coherent
  valid : g.validate = .ok ()
  records : HoldsRecords bytes g
  /-- Every input slot reads from an earlier layer. -/
  inputs : ∀ k c, g.content? k = some c → c.inputs.length = c.kind.inputCount ∧
    ∀ input ∈ c.inputs, ∃ source, input = some source ∧ source.layer < k ∧ g.HasOutput source
  /-- Every output slot is described, with one scale or with several scales along an axis. -/
  outputs : ∀ k c, g.content? k = some c → c.infos.length = c.kind.outputCount ∧
    ∀ output ∈ c.infos, ∃ info, output = some info ∧
      ((info.quantization.scales.length = 1 ∧ info.quantization.axis? = none) ∨
        (2 ≤ info.quantization.scales.length ∧ ∃ axis, info.quantization.axis? = some axis ∧
          axis.toNat < info.shape.rank ∧
          ∀ dim, info.shape.dim? axis.toNat = some dim →
            dim.toNat = info.quantization.scales.length))
  /-- Every constant has as many bytes as its elements have. -/
  constants : ∀ k c, g.content? k = some c → ∀ t ∈ c.kind.constants,
    ∃ count, t.info.elementCount = .ok count ∧ t.data.length = count * t.elementType.size

/-- What was accepted is such a graph. -/
theorem decoded_of_deserialize (h : (Graph.deserialize bytes).run supply = .ok g supply') :
    Decoded bytes g := by
  obtain ⟨_, _, _, -, haccepted⟩ := deserialize_eq_ok h
  have hg : g.Coherent := haccepted.sound.coherent
  refine ⟨hg, Graph.validate_eq_ok_iff.mpr haccepted.complete, holdsRecords_of_deserialize h,
    ?_, ?_, ?_⟩
  · intro k c hc
    refine ⟨(hg.content_slots hc).1, fun input hinput => ?_⟩
    cases input with
    | none => exact absurd hinput (haccepted.rewritable k c hc).complete.1
    | some source =>
      -- Layers are loaded behind what they read.
      have hlt : source.layer < k := haccepted.forward _ _ (Graph.feeds_of_content? hc hinput)
      exact ⟨source, rfl, hlt, hg.linked.hasOutput_of_content? hc hinput⟩
  · intro k c hc
    refine ⟨(hg.content_slots hc).2, fun output houtput => ?_⟩
    cases output with
    | none => exact absurd houtput (haccepted.rewritable k c hc).complete.2
    | some info =>
      have hconsistent := (haccepted.rewritable k c hc).infos_consistent houtput
      exact ⟨info, rfl, TensorInfo.consistent_iff.mp hconsistent⟩
  · intro k c _ t _
    exact t.length_data

end Container

/-- Reading ends with an error about a place in the bytes, or with a graph of what was read. -/
theorem Graph.ends_deserialize (bytes : List UInt8) (supply : GuidSupply) :
    Build.Ends (ContainerError.In bytes) (fun g _ => Container.Decoded bytes g)
      ((deserialize bytes).run supply) := by
  have hends := Container.ends_in_bytes bytes supply
  cases hrun : (deserialize bytes).run supply with
  | error e t =>
    rw [hrun] at hends
    exact .error (hends.fails_of_error rfl)
  | ok g t => exact .ok (Container.decoded_of_deserialize hrun)

end LayerGraph
