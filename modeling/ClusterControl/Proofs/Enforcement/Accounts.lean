import ClusterControl.Proofs.Enforcement.Turns

/-!
# What the log tells of a watch

The stage of a watch bounds what the log can say about its machine: a signal is accepted before the
deadline is acted on or never, and a host is asked to suspend its copy after the deadline or never.

* `Watch.Tells` is what the log says about the machine of a watch, stage by stage.
* `Watch.Turn.tells` says that a turn of the watch keeps it.
-/

namespace ClusterControl

open Enforcement (Deed Log)

namespace Enforcement.Log

/-- The machine was registered once, and a host was asked once to suspend its copy, no earlier than
the deadline. -/
def Late (l : Log) (timeout : Nat) (v : VmId) : Prop :=
  ∃ t₀ t, l.registrations v = [t₀] ∧ l.suspensions v = [t] ∧ t₀ + timeout ≤ t

/-- The log bears the outcome out: a signal decided the matter or nothing did, and no suspension was
asked for, or the deadline did. -/
def Bears (l : Log) (timeout : Nat) (v : VmId) (o : MigrationOutcome) : Prop :=
  (l.acceptances v).length ≤ 1 ∧
    ((l.suspensions v = [] ∧ o ≠ .forcedSuspend ∧ (o = .migrated → l.acceptances v = [true])) ∨
      (l.acceptances v = [] ∧ l.Late timeout v ∧
        (o = .forcedSuspend ∨ ∃ reason, o = .failed reason)))

/-- What may have been done about a machine: everything once, and a suspension late only and never
against an accepted signal. -/
structure Account (timeout : Nat) (l : Log) (v : VmId) : Prop where
  requests : (l.requests v).length ≤ 1
  suspensions : (l.suspensions v).length ≤ 1
  acceptances : (l.acceptances v).length ≤ 1
  late : ∀ t ∈ l.suspensions v, l.acceptances v = [] ∧ ∃ t₀ ∈ l.registrations v, t₀ + timeout ≤ t

theorem Account.of_unsuspended {timeout : Nat} {l : Log} {v : VmId}
    (hreq : (l.requests v).length ≤ 1) (hsus : l.suspensions v = [])
    (hacc : (l.acceptances v).length ≤ 1) : l.Account timeout v :=
  ⟨hreq, by simp [hsus], hacc, by simp [hsus]⟩

theorem Account.of_late {timeout : Nat} {l : Log} {v : VmId} (hreq : (l.requests v).length ≤ 1)
    (hacc : l.acceptances v = []) (hlate : l.Late timeout v) : l.Account timeout v := by
  obtain ⟨t₀, t, hreg, hsus, ht⟩ := hlate
  exact ⟨hreq, by simp [hsus], by simp [hacc], by simp [hsus, hreg, hacc, ht]⟩

/-- Deeds about other machines. -/
def Spares (l : Log) (v : VmId) : Prop :=
  l.registrations v = [] ∧ l.requests v = [] ∧ l.suspensions v = [] ∧ l.acceptances v = []

/-! ### Single deeds -/

theorem of_registered (t : Nat) (v : VmId) : Log.registrations [(t, .registered v)] v = [t] ∧
    Log.requests [(t, .registered v)] v = [] ∧ Log.suspensions [(t, .registered v)] v = [] ∧
      Log.acceptances [(t, .registered v)] v = [] := by
  simp [registrations, requests, suspensions, acceptances]

theorem of_migrate (t : Nat) (m : Migration) :
    Log.registrations [(t, .called (.migrate m))] m.vm = [] ∧
      Log.requests [(t, .called (.migrate m))] m.vm = [t] ∧
        Log.suspensions [(t, .called (.migrate m))] m.vm = [] ∧
          Log.acceptances [(t, .called (.migrate m))] m.vm = [] := by
  simp [registrations, requests, suspensions, acceptances]

theorem of_suspend (t : Nat) (h : HostId) (v : VmId) :
    Log.registrations [(t, .called (.suspend h v))] v = [] ∧
      Log.requests [(t, .called (.suspend h v))] v = [] ∧
        Log.suspensions [(t, .called (.suspend h v))] v = [t] ∧
          Log.acceptances [(t, .called (.suspend h v))] v = [] := by
  simp [registrations, requests, suspensions, acceptances]

theorem of_accepted (t : Nat) (v : VmId) (success : Bool) :
    Log.registrations [(t, .signalled v success true)] v = [] ∧
      Log.requests [(t, .signalled v success true)] v = [] ∧
        Log.suspensions [(t, .signalled v success true)] v = [] ∧
          Log.acceptances [(t, .signalled v success true)] v = [success] := by
  simp [registrations, requests, suspensions, acceptances]

/-- A signal that was not accepted says nothing. -/
theorem spares_refused (t : Nat) (u v : VmId) (success : Bool) :
    Log.Spares [(t, .signalled u success false)] v := by
  simp [Spares, registrations, requests, suspensions, acceptances]

end Enforcement.Log

namespace Watch

/-- A registered machine whose deadline has not been acted on: the signals that were accepted are
those in the mailbox. -/
structure Waits (w : Watch) (timeout : Nat) (l : Log) : Prop where
  registered : ∃ t₀, l.registrations w.migration.vm = [t₀] ∧ w.deadline = t₀ + timeout
  unsuspended : l.suspensions w.migration.vm = []
  accepted : (w.mailbox = .empty ∧ l.acceptances w.migration.vm = []) ∨
    ∃ b, w.mailbox = .sent b ∧ l.acceptances w.migration.vm = [b]

/-- What the log says about the machine of a watch. -/
def Tells (w : Watch) (timeout : Nat) (l : Log) : Prop :=
  match w.stage with
  | .created => l.Spares w.migration.vm
  | .starting asked _ =>
    w.Waits timeout l ∧ (l.requests w.migration.vm).length = if asked then 1 else 0
  | .running => w.Waits timeout l ∧ (l.requests w.migration.vm).length ≤ 1
  | .yielding => w.Waits timeout l ∧ (l.requests w.migration.vm).length ≤ 1
  | .suspending _ => l.acceptances w.migration.vm = [] ∧ l.Late timeout w.migration.vm ∧
      (l.requests w.migration.vm).length ≤ 1
  | .finished o => l.Bears timeout w.migration.vm o ∧ (l.requests w.migration.vm).length ≤ 1

variable {w w' : Watch} {timeout now : Nat} {l : Log} {ds : List Deed}

theorem Tells.requests (h : w.Tells timeout l) : (l.requests w.migration.vm).length ≤ 1 := by
  unfold Tells at h
  split at h
  · rw [h.2.1]
    exact Nat.zero_le 1
  · rw [h.2]
    split <;> simp
  · exact h.2
  · exact h.2
  · exact h.2.2
  · exact h.2

/-- At every stage a watch has a good account to give. -/
theorem Tells.account (h : w.Tells timeout l) : l.Account timeout w.migration.vm := by
  have hreq := h.requests
  have hwaits : w.Waits timeout l → l.Account timeout w.migration.vm := fun hw =>
    .of_unsuspended hreq hw.unsuspended (by rcases hw.accepted with ⟨-, h⟩ | ⟨b, -, h⟩ <;> simp [h])
  unfold Tells at h
  split at h
  · exact .of_unsuspended hreq h.2.2.1 (by simp [h.2.2.2])
  · exact hwaits h.1
  · exact hwaits h.1
  · exact hwaits h.1
  · exact .of_late hreq h.1 h.2.1
  · rcases h.1.2 with ⟨hsus, -, -⟩ | ⟨hacc, hlate, -⟩
    · exact .of_unsuspended hreq hsus h.1.1
    · exact .of_late hreq hacc hlate

/-- A watch that is under way waits. -/
theorem Tells.waits (h : w.Tells timeout l) (hwaits : w.isUnderWay = true ∨ w.stage = .yielding) :
    w.Waits timeout l := by
  unfold Tells at h
  unfold isUnderWay at hwaits
  split at h <;> simp_all

/-- A watch that waits can end without having been suspended. -/
theorem Waits.bears (h : w.Waits timeout l) {o : MigrationOutcome} (ho : o ≠ .forcedSuspend)
    (hmigrated : o = .migrated → w.mailbox = .sent true) : l.Bears timeout w.migration.vm o := by
  refine ⟨?_, .inl ⟨h.unsuspended, ho, fun hm => ?_⟩⟩
  · rcases h.accepted with ⟨-, hacc⟩ | ⟨b, -, hacc⟩ <;> simp [hacc]
  · rcases h.accepted with ⟨hmail, -⟩ | ⟨b, hmail, hacc⟩
    · rw [hmigrated hm] at hmail
      exact absurd hmail (by simp)
    · rw [hmigrated hm] at hmail
      rw [hacc, ← Mailbox.sent.inj hmail]

/-- Every unfinished watch can fail. -/
theorem Tells.bears_failed (h : w.Tells timeout l) (hunfinished : w.isFinished = false)
    (reason : String) : l.Bears timeout w.migration.vm (.failed reason) := by
  unfold Tells at h
  split at h
  · exact ⟨by simp [h.2.2.2], .inl ⟨h.2.2.1, by simp, by simp⟩⟩
  · exact h.1.bears (by simp) (by simp)
  · exact h.1.bears (by simp) (by simp)
  · exact h.1.bears (by simp) (by simp)
  · exact ⟨by simp [h.1], .inr ⟨h.1, h.2.1, .inr ⟨reason, rfl⟩⟩⟩
  · rename_i hstage
    rw [isFinished_of_stage hstage] at hunfinished
    exact absurd hunfinished (by simp)

/-- A watch that is given another stage waits as before, after deeds that do not concern the
wait. -/
theorem Waits.setStage (h : w.Waits timeout l) (s : Stage) {k : Log}
    (hreg : k.registrations w.migration.vm = []) (hsus : k.suspensions w.migration.vm = [])
    (hacc : k.acceptances w.migration.vm = []) : { w with stage := s }.Waits timeout (l ++ k) := by
  refine ⟨?_, ?_, ?_⟩
  · rw [Log.registrations_append, hreg, List.append_nil]
    exact h.registered
  · rw [Log.suspensions_append, hsus, List.append_nil]
    exact h.unsuspended
  · rw [Log.acceptances_append, hacc, List.append_nil]
    exact h.accepted

/-- An open watch goes on waiting when it accepts a signal. -/
theorem Waits.accept (h : w.Waits timeout l) (hmail : w.mailbox = .empty) (now : Nat)
    (success : Bool) (s : Stage) :
    { w with stage := s, terminated := true, mailbox := .sent success }.Waits timeout
      (l ++ [(now, Deed.signalled w.migration.vm success true)]) := by
  obtain ⟨hreg, hreq, hsus, hacc⟩ := Log.of_accepted now w.migration.vm success
  have hacc₀ : l.acceptances w.migration.vm = [] := by
    rcases h.accepted with ⟨-, hacc₀⟩ | ⟨b, hsent, -⟩
    · exact hacc₀
    · rw [hmail] at hsent
      exact absurd hsent (by simp)
  refine ⟨?_, ?_, .inr ⟨success, rfl, ?_⟩⟩
  · rw [Log.registrations_append, hreg, List.append_nil]
    exact h.registered
  · rw [Log.suspensions_append, hsus, List.append_nil]
    exact h.unsuspended
  · rw [Log.acceptances_append, hacc, hacc₀, List.nil_append]

/-- What comes through the channel is an accepted signal, or the channel is closed. -/
theorem outcome_of_mailbox {b : Mailbox} {o : MigrationOutcome} (h : b.outcome? = some o) :
    o ≠ .forcedSuspend ∧ (o = .migrated → b = .sent true) := by
  unfold Mailbox.outcome? at h
  split at h
  · exact absurd h (by simp)
  all_goals
    obtain rfl := Option.some.inj h
    simp

/-- What a watch tells is unchanged by deeds about other machines. -/
theorem Tells.append (h : w.Tells timeout l) {k : Log} (hk : k.Spares w.migration.vm) :
    w.Tells timeout (l ++ k) := by
  obtain ⟨hreg, hreq, hsus, hacc⟩ := hk
  have hwaits : w.Waits timeout l → w.Waits timeout (l ++ k) := fun hw =>
    hw.setStage w.stage hreg hsus hacc
  unfold Tells at h ⊢
  split <;> simp_all [Log.Spares, Log.Bears, Log.Late]

/-- The deeds of a turn are about the machine of its watch. -/
theorem Turn.spares (h : Turn now timeout w w' ds) {v : VmId} (hv : v ≠ w.migration.vm) :
    Log.Spares (ds.map (now, ·)) v := by
  cases h <;>
    simp [Log.Spares, Log.registrations, Log.requests, Log.suspensions, Log.acceptances, hv.symm]

/-- What a turn asks for concerns the migration of its watch. -/
theorem Turn.called (h : Turn now timeout w w' ds) {c : HostCall} (hc : Deed.called c ∈ ds) :
    c = .migrate w.migration ∨
      ∃ source, w.migration.source = some source ∧ c = .suspend source w.migration.vm := by
  cases h with
  | ask => exact .inl (Deed.called.inj (List.mem_singleton.1 hc))
  | expire hsource => exact .inr ⟨_, hsource, Deed.called.inj (List.mem_singleton.1 hc)⟩
  | _ => exact absurd hc (by simp)

/-- A turn of a watch keeps what the log tells of it. -/
theorem Turn.tells (h : Turn now timeout w w' ds) (hlabel : w'.label = w.label)
    (hcoherent : w.Coherent) (hunfinished : w.isFinished = false) (htells : w.Tells timeout l) :
    w'.Tells timeout (l ++ ds.map (now, ·)) := by
  have hvm : w'.migration.vm = w.migration.vm :=
    congrArg (fun x : Nat × Migration => x.2.vm) hlabel
  have hreq := htells.requests
  cases h with
  | lapse hsource hstage' =>
    rw [Tells, hstage', hvm, List.map_nil, List.append_nil]
    exact ⟨htells.bears_failed hunfinished _, hreq⟩
  | register hstage hw' =>
    rw [Tells, hstage] at htells
    obtain ⟨hreg₀, hreq₀, hsus₀, hacc₀⟩ := htells
    obtain ⟨hreg, hreq, hsus, hacc⟩ := Log.of_registered now w.migration.vm
    have hmail := (hcoherent.1 hstage).1
    subst hw'
    exact ⟨⟨⟨now, by simp [hreg₀, hreg], rfl⟩, by simp [hsus₀, hsus],
      .inl ⟨hmail, by simp [hacc₀, hacc]⟩⟩, by simp [hreq₀, hreq]⟩
  | ask hstage hw' =>
    rw [Tells, hstage] at htells
    obtain ⟨hwaits, hreq₀⟩ := htells
    obtain ⟨hreg, hreq, hsus, hacc⟩ := Log.of_migrate now w.migration
    subst hw'
    refine ⟨hwaits.setStage _ hreg hsus hacc, ?_⟩
    simpa [hreq] using hreq₀
  | answered r hstage hw' =>
    rw [Tells, hstage] at htells
    subst hw'
    exact ⟨htells.1.setStage _ rfl rfl rfl, by simpa using htells.2⟩
  | started hstage hw' =>
    have hwaits := htells.waits (.inl (by rw [isUnderWay, hstage]))
    subst hw'
    exact ⟨hwaits.setStage _ rfl rfl rfl, by simpa using hreq⟩
  | completed hstage hopen hw' =>
    obtain ⟨hunder, hmail⟩ := isOpen_iff.1 hopen
    obtain ⟨-, hreq₀, -, -⟩ := Log.of_accepted now w.migration.vm true
    have hwaits := (htells.waits (.inl hunder)).accept hmail now true .running
    subst hw'
    exact ⟨hwaits, by simpa [hreq₀] using hreq⟩
  | overtaken hstage hw' =>
    have hwaits := htells.waits (.inl (by rw [isUnderWay, hstage]))
    obtain ⟨hreg₀, hreq₀, hsus₀, hacc₀⟩ := Log.spares_refused now w.migration.vm w.migration.vm true
    subst hw'
    exact ⟨hwaits.setStage _ hreg₀ hsus₀ hacc₀, by simpa [hreq₀] using hreq⟩
  | refused hstage hstage' =>
    rw [Tells, hstage', hvm, List.map_nil, List.append_nil]
    exact ⟨htells.bears_failed hunfinished _, hreq⟩
  | accept success hopen hw' =>
    obtain ⟨hunder, hmail⟩ := isOpen_iff.1 hopen
    obtain ⟨-, hreq₀, -, -⟩ := Log.of_accepted now w.migration.vm success
    have hwaits := (htells.waits (.inl hunder)).accept hmail now success w.stage
    subst hw'
    unfold isUnderWay at hunder
    unfold Tells at htells ⊢
    split at hunder
    · rename_i hstage
      simp only [hstage] at htells ⊢
      exact ⟨hstage ▸ hwaits, by simpa [hreq₀] using htells.2⟩
    · rename_i hstage
      simp only [hstage] at htells ⊢
      exact ⟨hstage ▸ hwaits, by simpa [hreq₀] using htells.2⟩
    · exact absurd hunder (by simp)
  | hear hwaits hmail hstage' =>
    rw [Tells, hstage', hvm, List.map_nil, List.append_nil]
    obtain ⟨ho, hmigrated⟩ := outcome_of_mailbox hmail
    exact ⟨(htells.waits hwaits).bears ho hmigrated, hreq⟩
  | yield hwaits hterm hw' =>
    have hwaits := htells.waits (.inl hwaits)
    subst hw'
    exact ⟨hwaits.setStage _ rfl rfl rfl, by simpa using hreq⟩
  | @expire source hsource hunder hdue hterm hstage' =>
    obtain ⟨⟨t₀, hreg, hdeadline⟩, hsus, hmail⟩ := htells.waits (.inl hunder)
    obtain ⟨hreg₀, hreq₀, hsus₀, hacc₀⟩ := Log.of_suspend now source w.migration.vm
    have hacc : l.acceptances w.migration.vm = [] := by
      rcases hmail with ⟨-, hacc⟩ | ⟨b, hsent, -⟩
      · exact hacc
      · exact absurd (hcoherent.terminated_of_sent hunder hsent) (by simp [hterm])
    rw [Tells, hstage', hvm]
    refine ⟨by simp [hacc, hacc₀], ⟨t₀, now, by simp [hreg, hreg₀], by simp [hsus, hsus₀], ?_⟩,
      by simpa [hreq₀] using hreq⟩
    exact hdeadline ▸ hdue
  | suspended r hstage hstage' =>
    rw [Tells, hstage] at htells
    rwa [Tells, hstage', hvm, List.map_nil, List.append_nil]
  | forced hstage hstage' ho =>
    rw [Tells, hstage] at htells
    obtain ⟨hacc, hlate, -⟩ := htells
    rw [Tells, hstage', hvm, List.map_nil, List.append_nil]
    exact ⟨⟨by simp [hacc], .inr ⟨hacc, hlate, ho⟩⟩, hreq⟩

end Watch

end ClusterControl
