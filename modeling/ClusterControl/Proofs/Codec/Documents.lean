import ClusterControl.Codec.Settings
import ClusterControl.Proofs.Codec.Reports

/-!
# Documents that are written and read back

Settings are restored like the rest, defaults included, since every default is read back from its
own written form.

* `Settings.restores` says so of the settings of a controller.
* `documents_restored` puts together every kind of document that is read from outside.
-/

namespace ClusterControl

open Dialect

/-! ## Settings -/

namespace EstimatorSettings

theorem restores : Decoder.Restores (decodeIn .strict) encode := by
  intro j s h
  obtain ⟨r, -, h⟩ := Except.exists_of_bind h
  obtain ⟨name, -, h⟩ := Except.exists_of_bind h
  obtain ⟨window, hwindow, h⟩ := Except.exists_of_bind h
  obtain ⟨capacity, hcapacity, h⟩ := Except.exists_of_bind h
  obtain rfl := Except.ok.inj h
  have hwindow := Decoder.restores_nat64.withDefault rfl hwindow
  have hcapacity := Decoder.restores_nat64.withDefault rfl hcapacity
  rw [decodeIn, record_strict, encode, Decoder.record_object]
  · simp [string_strict, nat64_strict, Decoder.string, hwindow, hcapacity]
  · decide
  · exact .refl _

end EstimatorSettings

namespace PolicySettings

/-- Names are read back whatever they are. -/
theorem decode_encode (s : PolicySettings) : decodeIn .strict s.encode = .ok s := by
  rw [decodeIn, record_strict, encode, Decoder.record_object]
  · simp [string_strict, Decoder.string]
  · decide
  · exact .refl _

end PolicySettings

namespace ConsolidationSettings

theorem decode_encode (s : ConsolidationSettings) : decodeIn .strict s.encode = .ok s := by
  rw [decodeIn, record_strict, encode, Decoder.record_object]
  · simp [string_strict, bool_strict, Decoder.string, Decoder.bool]
  · decide
  · exact .refl _

end ConsolidationSettings

namespace EnforcementSettings

theorem restores : Decoder.Restores (decodeIn .strict) encode := by
  intro j s h
  obtain ⟨r, -, h⟩ := Except.exists_of_bind h
  obtain ⟨timeout, htimeout, h⟩ := Except.exists_of_bind h
  obtain rfl := Except.ok.inj h
  have htimeout := Decoder.restores_nat64.withDefault rfl htimeout
  rw [decodeIn, record_strict, encode, Decoder.record_object]
  · simp [nat64_strict, htimeout]
  · decide
  · exact .refl _

end EnforcementSettings

namespace EnergySettings

theorem restores : Decoder.Restores (decodeIn .strict) encode := by
  intro j s h
  obtain ⟨r, -, h⟩ := Except.exists_of_bind h
  obtain ⟨enabled, -, h⟩ := Except.exists_of_bind h
  obtain ⟨interval, hinterval, h⟩ := Except.exists_of_bind h
  obtain ⟨reserved, hreserved, h⟩ := Except.exists_of_bind h
  obtain ⟨action, haction, h⟩ := Except.exists_of_bind h
  obtain rfl := Except.ok.inj h
  have hinterval := Decoder.restores_nat64.withDefault rfl hinterval
  have hreserved := Decoder.restores_nat64.withDefault rfl hreserved
  have haction := PowerAction.restores.withDefault rfl haction
  rw [PowerAction.decode] at haction
  rw [decodeIn, record_strict, encode, Decoder.record_object]
  · simp [bool_strict, nat64_strict, choice_strict, Decoder.bool, hinterval, hreserved, haction]
  · decide
  · exact .refl _

end EnergySettings

namespace MonitoringSettings

theorem restores : Decoder.Restores (decodeIn .strict) encode := by
  intro j s h
  obtain ⟨r, -, h⟩ := Except.exists_of_bind h
  obtain ⟨interval, hinterval, h⟩ := Except.exists_of_bind h
  obtain ⟨queue, hqueue, h⟩ := Except.exists_of_bind h
  obtain rfl := Except.ok.inj h
  have hinterval := Decoder.restores_nat64.withDefault rfl hinterval
  have hqueue := Decoder.restores_nat64.withDefault rfl hqueue
  rw [decodeIn, record_strict, encode, Decoder.record_object]
  · simp [nat64_strict, hinterval, hqueue]
  · decide
  · exact .refl _

end MonitoringSettings

namespace Settings

theorem restores : Decoder.Restores decode encode := by
  intro j s h
  obtain ⟨r, -, h⟩ := Except.exists_of_bind h
  obtain ⟨estimator, hestimator, h⟩ := Except.exists_of_bind h
  obtain ⟨thresholds, hthresholds, h⟩ := Except.exists_of_bind h
  obtain ⟨policies, -, h⟩ := Except.exists_of_bind h
  obtain ⟨consolidation, -, h⟩ := Except.exists_of_bind h
  obtain ⟨enforcement, henforcement, h⟩ := Except.exists_of_bind h
  obtain ⟨energy, henergy, h⟩ := Except.exists_of_bind h
  obtain ⟨monitoring, hmonitoring, h⟩ := Except.exists_of_bind h
  obtain rfl := Except.ok.inj h
  have hestimator := EstimatorSettings.restores.withDefault rfl hestimator
  have hthresholds := Thresholds.restores.withDefault Thresholds.decode_encode_standard hthresholds
  have henforcement := EnforcementSettings.restores.withDefault rfl henforcement
  have henergy := EnergySettings.restores.withDefault rfl henergy
  have hmonitoring := MonitoringSettings.restores.withDefault rfl hmonitoring
  rw [Thresholds.decode] at hthresholds
  rw [decode, decodeIn, record_strict, encode, fields, Decoder.record_object]
  · simp [hestimator, hthresholds, PolicySettings.decode_encode,
      ConsolidationSettings.decode_encode, henforcement, henergy, hmonitoring]
  · decide
  · exact .refl _

end Settings

/-! ## Every document -/

/-- Whatever was read as one of the controller's documents is read back as it is from what is
written of it. -/
theorem documents_restored :
    (∀ j h, Host.decode j = .ok h → Host.decode h.encode = .ok h) ∧
    (∀ j vm, Vm.decode j = .ok vm → Vm.decode vm.encode = .ok vm) ∧
    (∀ j p, MigrationPlan.decode j = .ok p → MigrationPlan.decode p.encode = .ok p) ∧
    (∀ j p, PlacementPlan.decode j = .ok p → PlacementPlan.decode p.encode = .ok p) ∧
    (∀ j r, EnforcementReport.decode j = .ok r → EnforcementReport.decode r.encode = .ok r) ∧
    (∀ j o, Observation.decode j = .ok o → Observation.decode o.encode = .ok o) ∧
    (∀ j a, VmAction.decode j = .ok a → VmAction.decode a.encode = .ok a) ∧
    (∀ j r, SubmissionRequest.decode j = .ok r → SubmissionRequest.decode r.encode = .ok r) ∧
    (∀ j r, SubmissionResponse.decode j = .ok r → SubmissionResponse.decode r.encode = .ok r) ∧
    ∀ j s, Settings.decode j = .ok s → Settings.decode s.encode = .ok s :=
  ⟨Host.restores, Vm.restores, MigrationPlan.restores, PlacementPlan.restores,
    EnforcementReport.restores, Observation.restores, fun _ a _ => a.decode_encode,
    SubmissionRequest.restores, SubmissionResponse.restores, Settings.restores⟩

/-- A host with a negative amount in its capacity, more samples than its history holds, and all else
left out. -/
def untidy : Json :=
  let sample (t : Int) : Json :=
    .object [("timestamp", .int t), ("usage", .array [.int 1, .int 1, .int 1, .int 1])]
  .object [("id", .string "h"), ("total_capacity", .array [.int (-1), .int 4, .int 4, .int 4]),
    ("history", .object [("capacity", .int 1), ("entries", .array [sample 0, sample 1])])]

theorem documents_restored_of_untidy : ∃ h, Host.decode untidy = .ok h ∧
    h.capacity.cpu = 0 ∧ h.history.size = 1 ∧ Host.decode h.encode = .ok h := by
  obtain ⟨h, hread, hclean⟩ : ∃ h, Host.decode untidy = .ok h ∧
      h.capacity.cpu = 0 ∧ h.history.size = 1 := ⟨_, rfl, by decide, rfl⟩
  exact ⟨h, hread, hclean.1, hclean.2, documents_restored.1 untidy h hread⟩

end ClusterControl
