import ClusterControl.Codec.Inventory
import ClusterControl.Proofs.Json.Restoring
import ClusterControl.Proofs.Store.Histories

/-!
# Restoring the inventory

Hosts, machines and their parts are restored when they are written and read back.  Vectors are
clamped by the first reading and histories are cut by it; a second reading leaves both as they are.
-/

namespace ClusterControl

/-! ## Vectors -/

section Clamping

theorem isFinite_zero : (0 : Float).isFinite = true := by decide

theorem clamp_zero : Quantity.clamp (0 : Float) = 0 := by decide

/-- A double is clamped to zero, or it is finite and stays. -/
theorem clamp_cases (x : Float) :
    Quantity.clamp x = 0 ∨ x.isFinite = true ∧ Quantity.clamp x = x := by
  have hmax : Quantity.max x (Quantity.zero : Float) = x ∨
      Quantity.max x (Quantity.zero : Float) = 0 := by
    simp only [Quantity.max, Quantity.zero]
    split
    · exact .inr rfl
    · split
      · exact .inl rfl
      · split
        · exact .inl rfl
        · exact .inr rfl
  by_cases hfinite : x.isFinite = true
  · have hclamp : Quantity.clamp x = Quantity.max x (Quantity.zero : Float) := if_pos hfinite
    rw [hclamp]
    exact hmax.symm.imp id fun h => ⟨hfinite, h⟩
  · exact .inl (if_neg hfinite)

theorem isFinite_clamp (x : Float) : (Quantity.clamp x).isFinite = true := by
  obtain h | ⟨hfinite, h⟩ := clamp_cases x
  · rw [h]
    exact isFinite_zero
  · rw [h]
    exact hfinite

/-- A double that was clamped is not changed by clamping. -/
theorem clamp_clamp (x : Float) : Quantity.clamp (Quantity.clamp x) = Quantity.clamp x := by
  obtain h | ⟨-, h⟩ := clamp_cases x
  · rw [h]
    exact clamp_zero
  · rw [h, h]

end Clamping

namespace Resources

theorem clamped_clamped (v : Resources Float) : v.clamped.clamped = v.clamped := by
  refine Resources.ext fun r => ?_
  simp only [clamped, Resources.map, get_ofFn]
  exact clamp_clamp _

theorem isFinite_get_clamped (v : Resources Float) (r : Resource) :
    (v.clamped.get r).isFinite = true := by
  simp only [clamped, Resources.map, get_ofFn]
  exact isFinite_clamp _

/-- Finite numbers are read as they were written. -/
theorem decodeRaw_encode {v : Resources Float} (h : ∀ r, (v.get r).isFinite = true) :
    decodeRaw .strict v.encode = .ok v := by
  have hcpu : Decoder.float (.float v.cpu) = .ok v.cpu := Decoder.float_float (h .cpu)
  have hmemory : Decoder.float (.float v.memory) = .ok v.memory := Decoder.float_float (h .memory)
  have hrx : Decoder.float (.float v.networkRx) = .ok v.networkRx :=
    Decoder.float_float (h .networkRx)
  have htx : Decoder.float (.float v.networkTx) = .ok v.networkTx :=
    Decoder.float_float (h .networkTx)
  have hitems : Dialect.strict.tuple 4 v.encode =
      .ok [.float v.cpu, .float v.memory, .float v.networkRx, .float v.networkTx] := rfl
  rw [decodeRaw, hitems, Except.ok_bind]
  simp only [Dialect.strict, hcpu, hmemory, hrx, htx]
  rfl

/-- What was clamped is read back. -/
theorem decode_encode_clamped (v : Resources Float) : decode v.clamped.encode = .ok v.clamped := by
  rw [decode, decodeRaw_encode (isFinite_get_clamped v)]
  exact congrArg Except.ok (clamped_clamped v)

theorem restores : Decoder.Restores decode encode := by
  intro j v h
  obtain ⟨w, -, rfl⟩ := Except.exists_of_map h
  exact decode_encode_clamped w

end Resources

/-! ## Samples and histories -/

namespace Sample

theorem decode_encode {s : Sample Float}
    (htimestamp : Decoder.int64 (.int s.timestamp) = .ok s.timestamp)
    (husage : Resources.decode s.usage.encode = .ok s.usage) : decode s.encode = .ok s := by
  rw [decode, encode, Decoder.record_object]
  · simp [htimestamp, husage]
  · decide
  · exact .refl _

theorem restores : Decoder.Restores decode encode := by
  intro j s h
  obtain ⟨r, -, h⟩ := Except.exists_of_bind h
  obtain ⟨timestamp, htimestamp, h⟩ := Except.exists_of_bind h
  obtain ⟨usage, husage, h⟩ := Except.exists_of_bind h
  obtain rfl := Except.ok.inj h
  exact decode_encode (Decoder.restores_int64.required htimestamp)
    (Resources.restores.required husage)

end Sample

namespace History

variable {β : Type}

/-- A history is filled with its own entries. -/
theorem ofList_entries (h : History β) : ofList h.capacity h.entries = h := by
  refine History.ext (capacity_foldl_push _ _) ?_
  have hroom : (empty h.capacity : History β).entries.length + h.entries.length ≤
      (empty h.capacity : History β).capacity := by
    simpa [empty] using h.length_le
  exact entries_foldl_push hroom

variable {entry : Decoder β} {e : β → Json}

/-- A history whose capacity is a count and whose entries are restored is restored. -/
theorem decode_encode {h : History β} (hcapacity : Decoder.nat64 (.nat h.capacity) = .ok h.capacity)
    (hentries : ∀ b ∈ h.entries, entry (e b) = .ok b) : decode entry (h.encode e) = .ok h := by
  have hlist : Decoder.list entry (.array (h.entries.map e)) = .ok h.entries :=
    Decoder.items_map hentries
  rw [decode, encode, Decoder.record_object]
  · simp [hcapacity, hlist, ofList_entries]
  · decide
  · exact .refl _

theorem restores (he : Decoder.Restores entry e) : Decoder.Restores (decode entry) (encode e) := by
  intro j h hh
  obtain ⟨r, -, hh⟩ := Except.exists_of_bind hh
  obtain ⟨capacity, hcapacity, hh⟩ := Except.exists_of_bind hh
  obtain ⟨l, hl, hh⟩ := Except.exists_of_bind hh
  obtain rfl := Except.ok.inj hh
  have hitems : ∀ b ∈ l, entry (e b) = .ok b := by
    unfold Decoder.Fields.withDefault at hl
    split at hl
    · exact he.of_mem_list hl
    · rw [← Except.ok.inj hl]
      exact fun b hb => absurd hb List.not_mem_nil
  refine decode_encode ?_ fun b hb => hitems b ?_
  · rw [ofList, capacity_foldl_push]
    exact Decoder.restores_nat64.required hcapacity
  · obtain hempty | hmem := mem_foldl_push hb
    · exact absurd hempty List.not_mem_nil
    · exact hmem

theorem decode_encode_empty : decode entry (encode e (empty defaultCapacity)) =
    .ok (empty defaultCapacity) :=
  decode_encode rfl fun _ hb => absurd hb List.not_mem_nil

end History

/-! ## Machines -/

theorem VmStatus.restores : Decoder.Restores VmStatus.decode fun s => .string s.key :=
  Decoder.restores_choice _ _

theorem VmErrorCode.restores : Decoder.Restores VmErrorCode.decode fun c => .string c.key :=
  Decoder.restores_choice _ _

namespace Vm

theorem decode_encode {vm : Vm Float}
    (hstatus : VmStatus.decode (.string vm.status.key) = .ok vm.status)
    (hcode : ∀ c, vm.errorCode = some c → VmErrorCode.decode (.string c.key) = .ok c)
    (hrequested : Resources.decode vm.requested.encode = .ok vm.requested)
    (hhistory : History.decode Sample.decode (vm.history.encode Sample.encode) = .ok vm.history) :
    decode vm.encode = .ok vm := by
  obtain ⟨id, status, code, host, requested, history⟩ := vm
  rw [decode, encode, fields, Decoder.record_object]
  · -- which members are left out depends on the two values that may be absent
    cases code with
    | none =>
      cases host <;> simp [Decoder.string, Decoder.nullable, Json.memberIfSome, hstatus,
        hrequested, hhistory]
    | some c =>
      have hc := hcode c rfl
      cases host <;> simp [Decoder.string, Decoder.nullable, Json.memberIfSome, hstatus, hc,
        hrequested, hhistory]
  · decide
  · cases code <;> cases host <;> simp [Json.memberIfSome]

theorem restores : Decoder.Restores decode encode := by
  intro j vm h
  obtain ⟨r, -, h⟩ := Except.exists_of_bind h
  obtain ⟨id, -, h⟩ := Except.exists_of_bind h
  obtain ⟨status, hstatus, h⟩ := Except.exists_of_bind h
  obtain ⟨code, hcode, h⟩ := Except.exists_of_bind h
  obtain ⟨host, -, h⟩ := Except.exists_of_bind h
  obtain ⟨requested, hrequested, h⟩ := Except.exists_of_bind h
  obtain ⟨history, hhistory, h⟩ := Except.exists_of_bind h
  obtain rfl := Except.ok.inj h
  refine decode_encode (VmStatus.restores.withDefault rfl hstatus) (fun c hc => ?_)
    (Resources.restores.required hrequested)
    ((History.restores Sample.restores).withDefault History.decode_encode_empty hhistory)
  obtain rfl : code = some c := hc
  exact VmErrorCode.restores.orNone hcode

end Vm

/-- Every action is read back from its written form. -/
theorem VmAction.decode_encode (a : VmAction) : VmAction.decode a.encode = .ok a := by
  cases a <;> rfl

/-! ## Hosts -/

theorem HostStatus.restores : Decoder.Restores HostStatus.decode fun s => .string s.key :=
  Decoder.restores_choice _ _

theorem PowerAction.restores : Decoder.Restores PowerAction.decode fun a => .string a.key :=
  Decoder.restores_choice _ _

namespace Band

theorem restores : Decoder.Restores decode encode := by
  intro j b h
  obtain ⟨r, -, h⟩ := Except.exists_of_bind h
  obtain ⟨min, hmin, h⟩ := Except.exists_of_bind h
  obtain ⟨max, hmax, h⟩ := Except.exists_of_bind h
  obtain rfl := Except.ok.inj h
  have hmin := Decoder.restores_float.required hmin
  have hmax := Decoder.restores_float.required hmax
  rw [decode, decodeIn, Dialect.record_strict, Dialect.float_strict, encode, Decoder.record_object]
  · simp [hmin, hmax]
  · decide
  · exact .refl _

theorem decode_encode_standard (x : Resource) :
    decode (encode (Thresholds.standard.get x)) = .ok (Thresholds.standard.get x) := by
  cases x <;> rfl

end Band

namespace Thresholds

theorem decode_encode {t : Thresholds Float}
    (ht : ∀ x, Band.decode (t.get x).encode = .ok (t.get x)) : decode (encode t) = .ok t := by
  have hcpu := ht .cpu
  have hmemory := ht .memory
  have hrx := ht .networkRx
  have htx := ht .networkTx
  obtain ⟨cpu, memory, rx, tx⟩ := t
  simp only [Resources.get, Band.decode] at hcpu hmemory hrx htx
  rw [decode, decodeIn, Dialect.record_strict, encode, Decoder.record_object]
  · simp [Resource.all, Resource.name, Resources.get, hcpu, hmemory, hrx, htx]
  · decide
  · exact .refl _

theorem decode_encode_standard : decode (encode standard) = .ok standard :=
  decode_encode Band.decode_encode_standard

theorem restores : Decoder.Restores decode encode := by
  intro j t h
  obtain ⟨r, -, h⟩ := Except.exists_of_bind h
  have hband : ∀ (x : Resource) (b : Band Float),
      r.withDefault x.name (Band.decodeIn .strict) (standard.get x) = .ok b →
        Band.decode b.encode = .ok b := fun x b hb =>
    Band.restores.withDefault (Band.decode_encode_standard x) hb
  obtain ⟨cpu, hcpu, h⟩ := Except.exists_of_bind h
  obtain ⟨memory, hmemory, h⟩ := Except.exists_of_bind h
  obtain ⟨rx, hrx, h⟩ := Except.exists_of_bind h
  obtain ⟨tx, htx, h⟩ := Except.exists_of_bind h
  obtain rfl := Except.ok.inj h
  refine decode_encode fun x => ?_
  cases x with
  | cpu => exact hband .cpu cpu hcpu
  | memory => exact hband .memory memory hmemory
  | networkRx => exact hband .networkRx rx hrx
  | networkTx => exact hband .networkTx tx htx

end Thresholds

namespace Host

theorem decode_encode {h : Host Float}
    (hstatus : HostStatus.decode (.string h.status.key) = .ok h.status)
    (hcapacity : Resources.decode h.capacity.encode = .ok h.capacity)
    (hvms : Decoder.map Vm.decode (.object (h.vms.entries.map fun e => (e.1, e.2.encode))) =
      .ok h.vms)
    (hhistory : History.decode Sample.decode (h.history.encode Sample.encode) = .ok h.history)
    (hthresholds : Thresholds.decode h.thresholds.encode = .ok h.thresholds) :
    decode h.encode = .ok h := by
  rw [decode, encode, fields, Decoder.record_object]
  · simp [Decoder.string, hstatus, hcapacity, hvms, hhistory, hthresholds]
  · decide
  · exact .refl _

theorem restores : Decoder.Restores decode encode := by
  intro j h hh
  obtain ⟨r, -, hh⟩ := Except.exists_of_bind hh
  obtain ⟨id, -, hh⟩ := Except.exists_of_bind hh
  obtain ⟨address, -, hh⟩ := Except.exists_of_bind hh
  obtain ⟨status, hstatus, hh⟩ := Except.exists_of_bind hh
  obtain ⟨capacity, hcapacity, hh⟩ := Except.exists_of_bind hh
  obtain ⟨vms, hvms, hh⟩ := Except.exists_of_bind hh
  obtain ⟨history, hhistory, hh⟩ := Except.exists_of_bind hh
  obtain ⟨thresholds, hthresholds, hh⟩ := Except.exists_of_bind hh
  obtain rfl := Except.ok.inj hh
  exact decode_encode (HostStatus.restores.withDefault rfl hstatus)
    (Resources.restores.required hcapacity) (Vm.restores.map.withDefault rfl hvms)
    ((History.restores Sample.restores).withDefault History.decode_encode_empty hhistory)
    (Thresholds.restores.withDefault Thresholds.decode_encode_standard hthresholds)

end Host

end ClusterControl
