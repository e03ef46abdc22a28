import ClusterControl.Codec.Reports
import ClusterControl.Proofs.Codec.Inventory

/-!
# Restoring plans, reports and messages

Plans, reports of enforcements, submissions and observations are restored when they are written and
read back.  Their choices carry a tag, which the writer puts first.
-/

namespace ClusterControl

/-! ## Migration plans -/

namespace Migration

theorem restores : Decoder.Restores decode encode := by
  intro j m h
  obtain ⟨r, -, h⟩ := Except.exists_of_bind h
  obtain ⟨vm, -, h⟩ := Except.exists_of_bind h
  obtain ⟨source, -, h⟩ := Except.exists_of_bind h
  obtain ⟨destination, -, h⟩ := Except.exists_of_bind h
  obtain rfl := Except.ok.inj h
  rw [decode, encode, Decoder.record_object]
  · cases source <;> simp [Decoder.string, Decoder.nullable, Json.orNull]
  · decide
  · exact .refl _

end Migration

namespace MigrationPlan

theorem restores : Decoder.Restores decode encode := by
  intro j p h
  obtain ⟨r, -, h⟩ := Except.exists_of_bind h
  obtain ⟨migrations, hmigrations, h⟩ := Except.exists_of_bind h
  obtain ⟨used, hused, h⟩ := Except.exists_of_bind h
  obtain ⟨released, hreleased, h⟩ := Except.exists_of_bind h
  obtain rfl := Except.ok.inj h
  have hmigrations := Migration.restores.map.required hmigrations
  have hused := Decoder.restores_nat64.required hused
  have hreleased := Decoder.restores_nat64.required hreleased
  rw [decode, encode, Decoder.record_object]
  · simp [hmigrations, hused, hreleased]
  · decide
  · exact .refl _

end MigrationPlan

/-! ## Placement plans -/

namespace Assignment

theorem restores : Decoder.Restores decode encode := by
  intro j a h
  obtain ⟨r, -, h⟩ := Except.exists_of_bind h
  obtain ⟨vm, hvm, h⟩ := Except.exists_of_bind h
  obtain ⟨host, -, h⟩ := Except.exists_of_bind h
  obtain rfl := Except.ok.inj h
  have hvm := Vm.restores.required hvm
  rw [decode, encode, Decoder.record_object]
  · simp [Decoder.string, hvm]
  · decide
  · exact .refl _

end Assignment

namespace PlacementPlan

theorem restores : Decoder.Restores decode encode := by
  intro j p h
  obtain ⟨r, -, h⟩ := Except.exists_of_bind h
  obtain ⟨assignments, hassignments, h⟩ := Except.exists_of_bind h
  obtain ⟨unassigned, hunassigned, h⟩ := Except.exists_of_bind h
  obtain rfl := Except.ok.inj h
  have hassignments := Assignment.restores.list.required hassignments
  have hunassigned := Vm.restores.list.required hunassigned
  rw [decode, encode, Decoder.record_object]
  · simp [hassignments, hunassigned]
  · decide
  · exact .refl _

end PlacementPlan

/-! ## Reports of enforcements -/

/-- Every outcome is read back from its written form. -/
theorem MigrationOutcome.decode_encode (o : MigrationOutcome) :
    MigrationOutcome.decode o.encode = .ok o := by
  cases o <;> rfl

namespace MigrationResult

theorem restores : Decoder.Restores decode encode := by
  intro j m h
  obtain ⟨r, -, h⟩ := Except.exists_of_bind h
  obtain ⟨migration, hmigration, h⟩ := Except.exists_of_bind h
  obtain ⟨outcome, -, h⟩ := Except.exists_of_bind h
  obtain rfl := Except.ok.inj h
  have hmigration := Migration.restores.required hmigration
  rw [decode, encode, Decoder.record_object]
  · simp [hmigration, MigrationOutcome.decode_encode]
  · decide
  · exact .refl _

end MigrationResult

namespace EnforcementReport

theorem restores : Decoder.Restores decode encode := by
  intro j p h
  obtain ⟨r, -, h⟩ := Except.exists_of_bind h
  obtain ⟨results, hresults, h⟩ := Except.exists_of_bind h
  obtain rfl := Except.ok.inj h
  have hresults := MigrationResult.restores.list.required hresults
  rw [decode, encode, Decoder.record_object]
  · simp [hresults]
  · decide
  · exact .refl _

end EnforcementReport

/-! ## Submissions -/

namespace SubmissionRequest

theorem restores : Decoder.Restores decode encode := by
  intro j p h
  obtain ⟨r, -, h⟩ := Except.exists_of_bind h
  obtain ⟨vms, hvms, h⟩ := Except.exists_of_bind h
  obtain rfl := Except.ok.inj h
  have hvms := Vm.restores.list.required hvms
  rw [decode, encode, Decoder.record_object]
  · simp [hvms]
  · decide
  · exact .refl _

end SubmissionRequest

namespace PlacedVm

theorem restores : Decoder.Restores decode encode := by
  intro _ p _
  rw [decode, encode, Decoder.record_object]
  · simp [Decoder.string]
  · decide
  · exact .refl _

end PlacedVm

namespace FailedVm

theorem restores : Decoder.Restores decode encode := by
  intro j f h
  obtain ⟨r, -, h⟩ := Except.exists_of_bind h
  obtain ⟨vm, -, h⟩ := Except.exists_of_bind h
  obtain ⟨code, hcode, h⟩ := Except.exists_of_bind h
  obtain rfl := Except.ok.inj h
  have hcode := VmErrorCode.restores.required hcode
  rw [decode, encode, Decoder.record_object]
  · simp [Decoder.string, hcode]
  · decide
  · exact .refl _

end FailedVm

namespace SubmissionResponse

theorem restores : Decoder.Restores decode encode := by
  intro j p h
  obtain ⟨r, -, h⟩ := Except.exists_of_bind h
  obtain ⟨task, -, h⟩ := Except.exists_of_bind h
  obtain ⟨placed, hplaced, h⟩ := Except.exists_of_bind h
  obtain ⟨failed, hfailed, h⟩ := Except.exists_of_bind h
  obtain rfl := Except.ok.inj h
  have hplaced := PlacedVm.restores.list.required hplaced
  have hfailed := FailedVm.restores.list.required hfailed
  rw [decode, encode, Decoder.record_object]
  · simp [Decoder.string, hplaced, hfailed]
  · decide
  · exact .refl _

end SubmissionResponse

/-! ## Observations -/

namespace Observation

/-- The sample of an observation. -/
def sample : Observation Float → Sample Float
  | host _ s => s
  | vm _ s => s

/-- An observation whose sample is restored is restored. -/
theorem decode_encode {o : Observation Float}
    (hsample : Sample.decode o.sample.encode = .ok o.sample) : decode o.encode = .ok o := by
  cases o with
  | host id s =>
    have hs : Sample.decode s.encode = .ok s := hsample
    have htag : Decoder.tagged "kind" (host id s).encode =
        .ok ("host", .object [("host_id", .string id), ("sample", s.encode)]) := rfl
    have hrecord : Decoder.record ["host_id", "sample"]
        (.object [("host_id", .string id), ("sample", s.encode)]) = .ok ⟨false, _⟩ :=
      Decoder.record_object (by decide) (.refl _)
    rw [decode, htag, Except.ok_bind]
    simp [Decoder.string, hrecord, hs]
  | vm id s =>
    have hs : Sample.decode s.encode = .ok s := hsample
    have htag : Decoder.tagged "kind" (vm id s).encode =
        .ok ("virtual_machine", .object [("vm_id", .string id), ("sample", s.encode)]) := rfl
    have hrecord : Decoder.record ["vm_id", "sample"]
        (.object [("vm_id", .string id), ("sample", s.encode)]) = .ok ⟨false, _⟩ :=
      Decoder.record_object (by decide) (.refl _)
    rw [decode, htag, Except.ok_bind]
    simp [Decoder.string, hrecord, hs]

theorem restores : Decoder.Restores decode encode := by
  intro j o h
  refine decode_encode ?_
  obtain ⟨⟨tag, rest⟩, -, h⟩ := Except.exists_of_bind h
  dsimp only at h
  split at h
  · obtain ⟨r, -, h⟩ := Except.exists_of_bind h
    obtain ⟨id, -, h⟩ := Except.exists_of_bind h
    obtain ⟨s, hs, h⟩ := Except.exists_of_bind h
    obtain rfl := Except.ok.inj h
    exact Sample.restores.required hs
  · obtain ⟨r, -, h⟩ := Except.exists_of_bind h
    obtain ⟨id, -, h⟩ := Except.exists_of_bind h
    obtain ⟨s, hs, h⟩ := Except.exists_of_bind h
    obtain rfl := Except.ok.inj h
    exact Sample.restores.required hs
  · cases h

end Observation

end ClusterControl
