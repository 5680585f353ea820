import Anva.Handoff.Secret

/-! When a handoff is atomic and readable. A write keeps, from one system call to the
next, that the final name is on the whole text and that every file a crash may leave
is one that the recovery accepts, as long as the payload encodes to no more than the
reader takes and the umask leaves the mode that the recovery asks for. -/

namespace Anva.Handoff

/-! ### What is at the final name -/

def Stage.isPublished : Stage → Bool
  | .linked | .published | .removed | .returned => true
  | _ => false

/-- Where nothing was at the final name, only the whole text comes there. -/
structure Whole (text : Bytes) (stage : Stage) (v : Volume) : Prop where
  unpublished : stage.isPublished = false → v.now.final = none ∧ v.stored.final = none
  published : stage.isPublished = true → v.unsynced = none ∧ ∃ i, v.now.final = some i ∧
    (v.now.files i).content = text ∧ (v.stored.final = none ∨ v.stored.final = some i)
  written : stage = .restricted ∨ stage = .synced → ∀ i, v.now.pending = some i → (v.now.files i).content = text
  synced : stage = .synced → v.unsynced = none
  removed : stage = .removed ∨ stage = .returned → v.now.pending = none
  parent : stage = .begun ∨ v.now.parent = some true

theorem Whole.start {text : Bytes} {v : Volume} (h : v.Settled) (hfinal : v.now.final = none) :
    Whole text .begun v where
  unpublished _ := ⟨hfinal, by rw [h.stored]; exact hfinal⟩
  published := by simp [Stage.isPublished]
  written := by simp
  synced := by simp
  removed := by simp
  parent := Or.inl rfl

theorem cleanupPending_eq_ok {d d' : Disk} (h : cleanupPending d = .ok d') :
    d' = d ∧ d.pending = none ∨ d' = d.unlinkPending := by
  unfold cleanupPending at h
  rcases hpending : d.pending with _ | i
  · rw [hpending] at h
    exact Or.inl ⟨(Except.ok.inj h).symm, rfl⟩
  · rw [hpending] at h
    simp only at h
    split_ifs at h
    exact Or.inr (Except.ok.inj h).symm

theorem cleanupPending_unlinks {d d' : Disk} {i : Inode} (hpending : d.pending = some i)
    (h : cleanupPending d = .ok d') : d' = d.unlinkPending := by
  rcases cleanupPending_eq_ok h with ⟨-, hnone⟩ | hunlink
  · rw [hpending] at hnone
    cases hnone
  · exact hunlink

@[simp] theorem write_pending (d : Disk) (i : Inode) (file : File) : (d.write i file).pending = d.pending := rfl
@[simp] theorem write_final (d : Disk) (i : Inode) (file : File) : (d.write i file).final = d.final := rfl
@[simp] theorem write_parent (d : Disk) (i : Inode) (file : File) : (d.write i file).parent = d.parent := rfl
@[simp] theorem write_files_self (d : Disk) (i : Inode) (file : File) : (d.write i file).files i = file := if_pos rfl

theorem write_files_of_ne {d : Disk} {i j : Inode} (file : File) (h : j ≠ i) : (d.write i file).files j = d.files j :=
  if_neg h

theorem Whole.step {umask : ℕ} {text : Bytes} {stage stage' : Stage} {v v' : Volume} (h : Whole text stage v)
    (hstep : Step umask text (stage, v) (stage', v')) : Whole text stage' v' := by
  cases hstep with
  | mkdir hparent => exact ⟨h.unpublished, by simp [Stage.isPublished], by simp, by simp, by simp, Or.inl rfl⟩
  | cleanup hparent hpending hcleanup =>
    obtain rfl := cleanupPending_unlinks hpending hcleanup
    exact ⟨fun _ => h.unpublished rfl, by simp [Stage.isPublished], by simp, by simp, by simp, Or.inr hparent⟩
  | syncCleanup =>
    exact ⟨fun _ => ⟨(h.unpublished rfl).1, (h.unpublished rfl).1⟩, by simp [Stage.isPublished], by simp, by simp,
      by simp, Or.inr (h.parent.resolve_left (by simp))⟩
  | noPending hparent hpending =>
    exact ⟨fun _ => h.unpublished rfl, by simp [Stage.isPublished], by simp, by simp, by simp, Or.inr hparent⟩
  | openPending hfinal hpending hnew =>
    exact ⟨fun _ => h.unpublished rfl, by simp [Stage.isPublished], by simp, by simp, by simp,
      Or.inr (h.parent.resolve_left (by simp))⟩
  | write hpending hmore htext =>
    exact ⟨fun _ => h.unpublished rfl, by simp [Stage.isPublished], by simp, by simp, by simp,
      Or.inr (h.parent.resolve_left (by simp))⟩
  | @fchmod v i hpending hwritten =>
    refine ⟨fun _ => h.unpublished rfl, by simp [Stage.isPublished], fun _ j hj => ?_, by simp, by simp,
      Or.inr (h.parent.resolve_left (by simp))⟩
    obtain rfl := Option.some.inj (hpending.symm.trans hj)
    simpa using hwritten
  | fsync =>
    exact ⟨fun _ => h.unpublished rfl, by simp [Stage.isPublished], fun _ => h.written (Or.inl rfl), fun _ => rfl,
      by simp, Or.inr (h.parent.resolve_left (by simp))⟩
  | @link v i hpending hsecure hfinal =>
    refine ⟨by simp [Stage.isPublished], fun _ => ⟨h.synced rfl, i, rfl, h.written (Or.inr rfl) i hpending,
      Or.inl (h.unpublished rfl).2⟩, by simp, by simp, by simp,
      Or.inr (h.parent.resolve_left (by simp))⟩
  | syncLink =>
    obtain ⟨hsynced, i, hfinal, hcontent, -⟩ := h.published rfl
    exact ⟨by simp [Stage.isPublished], fun _ => ⟨hsynced, i, hfinal, hcontent, Or.inr hfinal⟩, by simp, by simp,
      by simp, Or.inr (h.parent.resolve_left (by simp))⟩
  | unlink =>
    exact ⟨by simp [Stage.isPublished], fun _ => h.published rfl, by simp, by simp, fun _ => rfl,
      Or.inr (h.parent.resolve_left (by simp))⟩
  | syncUnlink =>
    obtain ⟨hsynced, i, hfinal, hcontent, -⟩ := h.published rfl
    exact ⟨by simp [Stage.isPublished], fun _ => ⟨hsynced, i, hfinal, hcontent, Or.inr hfinal⟩, by simp, by simp,
      fun _ => h.removed (Or.inl rfl), Or.inr (h.parent.resolve_left (by simp))⟩
  | discard hstage hpending hsecure =>
    simp only [List.mem_cons, List.not_mem_nil, or_false] at hstage
    have hunpublished : stage.isPublished = false ∧ stage ≠ .begun := by
      rcases hstage with rfl | rfl | rfl <;> simp [Stage.isPublished]
    exact ⟨fun _ => h.unpublished hunpublished.1, by simp [Stage.isPublished], by simp, by simp, by simp,
      Or.inr (h.parent.resolve_left hunpublished.2)⟩
  | leave hstage hpending hsecure =>
    simp only [List.mem_cons, List.not_mem_nil, or_false] at hstage
    have hunpublished : stage.isPublished = false ∧ stage ≠ .begun := by
      rcases hstage with rfl | rfl | rfl <;> simp [Stage.isPublished]
    exact ⟨fun _ => h.unpublished hunpublished.1, by simp [Stage.isPublished], by simp, by simp, by simp,
      Or.inr (h.parent.resolve_left hunpublished.2)⟩
  | syncDiscard =>
    exact ⟨fun _ => ⟨(h.unpublished rfl).1, (h.unpublished rfl).1⟩, by simp [Stage.isPublished], by simp, by simp,
      by simp, Or.inr (h.parent.resolve_left (by simp))⟩

theorem Whole.reached {umask : ℕ} {text : Bytes} {v₀ v : Volume} {stage : Stage} (h₀ : v₀.Settled)
    (hfinal : v₀.now.final = none) (h : Reaches umask text v₀ (stage, v)) : Whole text stage v := by
  have hpoint : ∀ point, Reaches umask text v₀ point → Whole text point.1 point.2 := by
    intro point hreach
    induction hreach with
    | refl => exact Whole.start h₀ hfinal
    | tail _ hstep ih => exact ih.step hstep
  exact hpoint _ h

theorem Whole.survives {text : Bytes} {stage : Stage} {v : Volume} {d : Disk} (h : Whole text stage v)
    (hd : Survives v d) {i : Inode} (hi : d.final = some i) : (d.files i).content = text := by
  rcases hpublished : stage.isPublished with _ | _
  · obtain ⟨hnow, hstored⟩ := h.unpublished hpublished
    rcases hd.final with hf | hf
    · rw [hf, hnow] at hi
      cases hi
    · rw [hf, hstored] at hi
      cases hi
  · obtain ⟨hsynced, j, hnow, hcontent, hstored⟩ := h.published hpublished
    have hij : i = j := by
      rcases hd.final with hf | hf
      · exact Option.some.inj (hi.symm.trans (hf.trans hnow))
      · rcases hstored with hnone | hsome
        · rw [hf, hnone] at hi
          cases hi
        · exact Option.some.inj (hi.symm.trans (hf.trans hsome))
    rcases hd.files i with hsame | ⟨mode, content, hunsynced, -⟩
    · rw [hsame, hij]
      exact hcontent
    · rw [hsynced] at hunsynced
      cases hunsynced

/-! ### What is there already -/

/-- A write over an existing file ends before it opens anything. -/
structure Kept (disk : Disk) (i : Inode) (stage : Stage) (v : Volume) : Prop where
  stage : stage = .begun ∨ stage = .cleaned ∨ stage = .ready
  now : v.now.final = some i
  stored : v.stored.final = some i
  files : v.now.files = disk.files
  unsynced : v.unsynced = none

theorem Kept.step {umask : ℕ} {text : Bytes} {disk : Disk} {i : Inode} {stage stage' : Stage} {v v' : Volume}
    (h : Kept disk i stage v) (hstep : Step umask text (stage, v) (stage', v')) : Kept disk i stage' v' := by
  obtain ⟨hstage, hnow, hstored, hfiles, hunsynced⟩ := h
  cases hstep with
  | mkdir hparent => exact ⟨Or.inl rfl, hnow, hstored, hfiles, hunsynced⟩
  | cleanup hparent hpending hcleanup =>
    obtain rfl := cleanupPending_unlinks hpending hcleanup
    exact ⟨Or.inr (Or.inl rfl), hnow, hstored, hfiles, hunsynced⟩
  | syncCleanup => exact ⟨Or.inr (Or.inr rfl), hnow, hnow, hfiles, hunsynced⟩
  | noPending hparent hpending => exact ⟨Or.inr (Or.inr rfl), hnow, hstored, hfiles, hunsynced⟩
  | openPending hfinal hpending hnew =>
    rw [hnow] at hfinal
    cases hfinal
  | discard hmem hpending hsecure => rcases hstage with rfl | rfl | rfl <;> simp at hmem
  | leave hmem hpending hsecure => rcases hstage with rfl | rfl | rfl <;> simp at hmem
  | write => simp at hstage
  | fchmod => simp at hstage
  | fsync => simp at hstage
  | link => simp at hstage
  | syncLink => simp at hstage
  | unlink => simp at hstage
  | syncUnlink => simp at hstage
  | syncDiscard => simp at hstage

theorem Kept.reached {umask : ℕ} {text : Bytes} {v₀ v : Volume} {stage : Stage} {i : Inode} (h₀ : v₀.Settled)
    (hfinal : v₀.now.final = some i) (h : Reaches umask text v₀ (stage, v)) : Kept v₀.now i stage v := by
  have hpoint : ∀ point, Reaches umask text v₀ point → Kept v₀.now i point.1 point.2 := by
    intro point hreach
    induction hreach with
    | refl => exact ⟨Or.inl rfl, hfinal, by rw [h₀.stored]; exact hfinal, rfl, h₀.unsynced⟩
    | tail _ hstep ih => exact ih.step hstep
  exact hpoint _ h

/-! ### Files that the recovery accepts -/

/-- A file of the handoff: its owner's alone, under no name but the two. -/
structure Plain (file : File) : Prop where
  regular : file.regular = true
  owned : file.owned = true
  mode : file.mode = ownerOnly
  otherLinks : file.otherLinks = 0

theorem secureOwned_iff {d : Disk} {i : Inode} {links : List ℕ} (h : Plain (d.files i)) :
    d.secureOwned i links = true ↔ d.links i ∈ links := by
  simp [Disk.secureOwned, h.regular, h.owned, h.mode]

theorem plain_of_secureOwned {d : Disk} {i : Inode} (hpending : d.pending = some i)
    (h : d.secureOwned i [1] = true) : Plain (d.files i) := by
  simp only [Disk.secureOwned, decide_eq_true_eq, List.mem_singleton] at h
  obtain ⟨hregular, howned, hmode, hlinks⟩ := h
  refine ⟨hregular, howned, hmode, ?_⟩
  rw [Disk.links, if_pos hpending] at hlinks
  omega

/-- What both names of a disk may be on for the recovery to accept it. -/
structure Acceptable (d : Disk) : Prop where
  parent : d.parent ≠ some false
  pending : ∀ i, d.pending = some i → Plain (d.files i)
  final : ∀ i, d.final = some i → Plain (d.files i)

theorem Acceptable.cleanup {d : Disk} (h : Acceptable d) : cleanupPending d = .ok d.unlinkPending := by
  rcases hpending : d.pending with _ | i
  · have hsame : d.unlinkPending = d := by rw [Disk.unlinkPending, ← hpending]
    rw [cleanupPending, hpending, hsame]
  · have hplain := h.pending i hpending
    have hlinks : d.links i = 1 + if d.final = some i then 1 else 0 := by
      rw [Disk.links, hplain.otherLinks, if_pos hpending]
    have hsecure : d.secureOwned i [1, 2] = true := by
      rw [secureOwned_iff hplain, hlinks]
      split_ifs <;> simp
    have hlinked : ¬ (d.links i = 2 ∧ ¬ (d.final = some i ∧ d.secureOwned i [2] = true)) := by
      rintro ⟨htwo, hnot⟩
      have hfinal : d.final = some i := by
        by_contra hne
        rw [hlinks, if_neg hne] at htwo
        omega
      exact hnot ⟨hfinal, (secureOwned_iff hplain).mpr (by simp [htwo])⟩
    rw [cleanupPending, hpending]
    simp only [hsecure, Bool.true_eq_false, if_false, if_neg hlinked]

section

variable {Payload : Type} {codec : Codec Payload}

/-- Nothing, or the payload that the final name is on, is loaded from an acceptable disk. -/
theorem Acceptable.load {d : Disk} (h : Acceptable d) (hparent : d.parent = some true) {payload : Payload}
    (hfinal : ∀ i, d.final = some i → (d.files i).content = codec.dumps payload)
    (hbound : (codec.dumps payload).length ≤ maxHandoffBytes) (recoverIncomplete : Bool) :
    loadSecretHandoff codec d recoverIncomplete =
      .ok (d.unlinkPending, d.final.map fun _ => payload) := by
  have hname : d.unlinkPending.final = d.final := rfl
  have hfiles : d.unlinkPending.files = d.files := rfl
  rw [loadSecretHandoff, requireParent, hparent, h.cleanup]
  simp only [bind, Except.bind, pure, Except.pure, hname, hfiles]
  rcases hi : d.final with _ | i
  · rfl
  · have hsecure : d.unlinkPending.secureOwned i [1] = true := by
      have hplain : Plain (d.unlinkPending.files i) := h.final i hi
      rw [secureOwned_iff hplain, Disk.links, hplain.otherLinks, hname, hi]
      simp [Disk.unlinkPending]
    simp only [hsecure, Bool.true_eq_false, if_false, hfinal i hi, if_neg (not_lt.mpr hbound), codec.loads_dumps,
      Option.map_some]

theorem Acceptable.recover {d : Disk} (h : Acceptable d) (hinside : d.parent = none → d.pending = none)
    {payload : Payload} (hfinal : ∀ i, d.final = some i → (d.files i).content = codec.dumps payload)
    (hbound : (codec.dumps payload).length ≤ maxHandoffBytes) :
    ∃ d' value, recoverSecretHandoff codec d = .ok (d', value) ∧ d'.pending = none ∧
      (value = none ∨ value = some payload) := by
  rcases hparent : d.parent with _ | safe
  · exact ⟨d, none, by rw [recoverSecretHandoff, hparent], hinside hparent, Or.inl rfl⟩
  · have hsafe : safe = true := by
      cases safe
      · exact absurd hparent h.parent
      · rfl
    rw [hsafe] at hparent
    refine ⟨_, _, by rw [recoverSecretHandoff, hparent]; exact h.load hparent hfinal hbound true, rfl, ?_⟩
    rcases d.final with _ | i
    · exact Or.inl rfl
    · exact Or.inr rfl

end

/-! ### Every point of a write leaves such disks -/

/-- Each file that a name is on or was synced on is one that the recovery accepts. -/
structure Safe (v : Volume) : Prop where
  parent : v.now.parent ≠ some false ∧ v.stored.parent ≠ some false
  pending : ∀ i, v.now.pending = some i ∨ v.stored.pending = some i → Plain (v.now.files i)
  final : ∀ i, v.now.final = some i ∨ v.stored.final = some i → Plain (v.now.files i)
  unsynced : ∀ i mode, v.unsynced = some (i, mode) → mode = ownerOnly

theorem Safe.start {v : Volume} (h : v.Settled) (hadmits : Admits v.now) (hfinal : v.now.final = none) : Safe v := by
  obtain ⟨hparent, d, hcleanup⟩ := hadmits
  have hpending : ∀ i, v.now.pending = some i → Plain (v.now.files i) := by
    intro i hi
    rw [cleanupPending, hi] at hcleanup
    simp only at hcleanup
    split_ifs at hcleanup with hinsecure hlinked
    have hsecure : v.now.secureOwned i [1, 2] = true := by simpa using hinsecure
    -- no final name is there, so the pending file has no second one
    have hone : v.now.links i ≠ 2 := fun htwo => hlinked ⟨htwo, fun hboth => by
      rw [hfinal] at hboth
      cases hboth.1⟩
    refine plain_of_secureOwned hi ?_
    simp only [Disk.secureOwned, decide_eq_true_eq, List.mem_cons, List.not_mem_nil, or_false] at hsecure ⊢
    exact ⟨hsecure.1, hsecure.2.1, hsecure.2.2.1, hsecure.2.2.2.resolve_right hone⟩
  refine ⟨⟨hparent, h.stored ▸ hparent⟩, fun i hi => ?_, fun i hi => ?_, fun i mode hmode => ?_⟩
  · rw [h.stored, or_self] at hi
    exact hpending i hi
  · rw [h.stored, or_self, hfinal] at hi
    cases hi
  · rw [h.unsynced] at hmode
    cases hmode

theorem Safe.write {v : Volume} (h : Safe v) {i : Inode} {file : File}
    (hfile : Plain (v.now.files i) → Plain file) : Safe { v with now := v.now.write i file } := by
  have hkept : ∀ j, Plain (v.now.files j) → Plain ((v.now.write i file).files j) := by
    intro j hj
    by_cases he : j = i
    · subst he
      rw [write_files_self]
      exact hfile hj
    · rw [write_files_of_ne file he]
      exact hj
  exact ⟨h.parent, fun j hj => hkept j (h.pending j hj), fun j hj => hkept j (h.final j hj), h.unsynced⟩

theorem Safe.syncNames {v : Volume} (h : Safe v) : Safe v.syncNames where
  parent := ⟨h.parent.1, h.parent.1⟩
  pending i hi := h.pending i (Or.inl (or_self_iff.mp hi))
  final i hi := h.final i (Or.inl (or_self_iff.mp hi))
  unsynced := h.unsynced

theorem Safe.unlink {v : Volume} (h : Safe v) : Safe { v with now := v.now.unlinkPending } where
  parent := h.parent
  pending i hi := h.pending i (Or.inr (hi.resolve_left (by simp [Disk.unlinkPending])))
  final := h.final
  unsynced := h.unsynced

theorem Safe.step {umask : ℕ} {text : Bytes} (hmode : createdMode umask = ownerOnly) {stage stage' : Stage}
    {v v' : Volume} (h : Safe v) (hstep : Step umask text (stage, v) (stage', v')) : Safe v' := by
  cases hstep with
  | mkdir hparent => exact ⟨⟨by simp, h.parent.2⟩, h.pending, h.final, h.unsynced⟩
  | cleanup hparent hpending hcleanup =>
    obtain rfl := cleanupPending_unlinks hpending hcleanup
    exact h.unlink
  | syncCleanup => exact h.syncNames
  | noPending hparent hpending => exact h
  | @openPending v i hfinal hpending hnew =>
    have hcreated : Plain (createdFile umask) := ⟨rfl, rfl, hmode, rfl⟩
    refine ⟨h.parent, fun j hj => ?_, fun j hj => ?_, fun j mode hunsynced => ?_⟩
    · by_cases he : j = i
      · subst he
        exact (write_files_self v.now j _).symm ▸ hcreated
      · have hold : v.stored.pending = some j := hj.resolve_left fun hi => he (Option.some.inj hi).symm
        exact (write_files_of_ne (createdFile umask) he).symm ▸ h.pending j (Or.inr hold)
    · have he : j ≠ i := by
        rintro rfl
        exact hj.elim hnew.1.2 hnew.2.2
      exact (write_files_of_ne (createdFile umask) he).symm ▸ h.final j hj
    · obtain ⟨-, rfl⟩ := Prod.mk.inj (Option.some.inj hunsynced)
      exact hmode
  | write hpending hmore htext => exact h.write fun hplain => ⟨hplain.regular, hplain.owned, hplain.mode,
      hplain.otherLinks⟩
  | fchmod hpending hwritten => exact h.write fun hplain => ⟨hplain.regular, hplain.owned, rfl, hplain.otherLinks⟩
  | fsync => exact ⟨h.parent, h.pending, h.final, by simp⟩
  | @link v i hpending hsecure hfinal =>
    refine ⟨h.parent, h.pending, fun j hj => ?_, h.unsynced⟩
    rcases hj with hj | hj
    · obtain rfl := Option.some.inj hj
      exact h.pending i (Or.inl hpending)
    · exact h.final j (Or.inr hj)
  | syncLink => exact h.syncNames
  | unlink => exact h.unlink
  | syncUnlink => exact h.syncNames
  | discard hstage hpending hsecure => exact h.unlink
  | leave hstage hpending hsecure => exact h
  | syncDiscard => exact h.syncNames

theorem Safe.reached {umask : ℕ} {text : Bytes} (hmode : createdMode umask = ownerOnly) {v₀ v : Volume}
    {stage : Stage} (h₀ : v₀.Settled) (hadmits : Admits v₀.now) (hfinal : v₀.now.final = none)
    (h : Reaches umask text v₀ (stage, v)) : Safe v := by
  have hpoint : ∀ point, Reaches umask text v₀ point → Safe point.2 := by
    intro point hreach
    induction hreach with
    | refl => exact Safe.start h₀ hadmits hfinal
    | tail _ hstep ih => exact ih.step hmode hstep
  exact hpoint _ h

theorem Safe.acceptable {v : Volume} {d : Disk} (h : Safe v) (hd : Survives v d) : Acceptable d := by
  have hfile : ∀ i, Plain (v.now.files i) → Plain (d.files i) := by
    intro i hplain
    rcases hd.files i with hsame | ⟨mode, content, hunsynced, hsame | hsame⟩
    · exact hsame ▸ hplain
    · exact hsame ▸ ⟨hplain.regular, hplain.owned, hplain.mode, hplain.otherLinks⟩
    · exact hsame ▸ ⟨hplain.regular, hplain.owned, h.unsynced i mode hunsynced, hplain.otherLinks⟩
  refine ⟨?_, fun i hi => hfile i (h.pending i ?_), fun i hi => hfile i (h.final i ?_)⟩
  · rcases hd.parent with hp | hp
    · rw [hp]
      exact h.parent.1
    · rw [hp]
      exact h.parent.2
  · exact hd.pending.imp (fun hp => hp.symm.trans hi) fun hp => hp.symm.trans hi
  · exact hd.final.imp (fun hf => hf.symm.trans hi) fun hf => hf.symm.trans hi

/-! ### A write into an empty directory -/

def emptyVolume : Volume where
  now := ⟨some true, none, none, fun _ => createdFile 0⟩
  stored := ⟨some true, none, none, fun _ => createdFile 0⟩
  unsynced := none

theorem emptyVolume_settled : emptyVolume.Settled where
  stored := rfl
  unsynced := rfl
  inside := by simp [emptyVolume]

theorem emptyVolume_admits : Admits emptyVolume.now := ⟨by simp [emptyVolume], _, rfl⟩

def openedVolume (umask : ℕ) : Volume where
  now := { emptyVolume.now.write 0 (createdFile umask) with pending := some 0 }
  stored := emptyVolume.stored
  unsynced := some (0, createdMode umask)

theorem opened_reached (umask : ℕ) (text : Bytes) : Reaches umask text emptyVolume (.opened, openedVolume umask) := by
  have hready : Step umask text (.begun, emptyVolume) (.ready, emptyVolume) := .noPending rfl rfl
  have hopened : Step umask text (.ready, emptyVolume) (.opened, openedVolume umask) :=
    .openPending rfl rfl (by simp [Disk.Unnamed, emptyVolume])
  exact (Relation.ReflTransGen.single hready).tail hopened

/-- The file as it is published. -/
def publishedFile (umask : ℕ) (text : Bytes) : File :=
  { createdFile umask with content := text, mode := ownerOnly }

theorem returned_reached (umask : ℕ) (text : Bytes) : ∃ v, Reaches umask text emptyVolume (.returned, v) ∧
    v.now.parent = some true ∧ v.now.pending = none ∧ v.now.final = some 0 ∧
    v.now.files 0 = publishedFile umask text := by
  let written : Volume := { openedVolume umask with
    now := (openedVolume umask).now.write 0 { createdFile umask with content := text } }
  let restricted : Volume := { written with now := written.now.write 0 (publishedFile umask text) }
  let synced : Volume := { restricted with unsynced := none }
  let linked : Volume := { synced with now := { synced.now with final := some 0 } }
  have hwritten : Step umask text (.opened, openedVolume umask) (.opened, written) :=
    .write (i := 0) rfl List.nil_prefix List.prefix_rfl
  have hrestricted : Step umask text (.opened, written) (.restricted, restricted) := .fchmod (i := 0) rfl rfl
  have hsynced : Step umask text (.restricted, restricted) (.synced, synced) := .fsync
  have hsecure : synced.now.secureOwned 0 [1] = true := rfl
  have hlinked : Step umask text (.synced, synced) (.linked, linked) := .link rfl hsecure rfl
  have hpublished : Step umask text (.linked, linked) (.published, linked.syncNames) := .syncLink
  refine ⟨_, ((((((opened_reached umask text).tail hwritten).tail hrestricted).tail hsynced).tail hlinked).tail
    hpublished).tail .unlink |>.tail .syncUnlink, rfl, rfl, rfl, rfl⟩

section

variable {Payload : Type} (codec : Codec Payload)

theorem recover_opened {umask : ℕ} (hmode : createdMode umask ≠ ownerOnly) :
    ∀ result, recoverSecretHandoff codec (openedVolume umask).now ≠ .ok result := by
  have hinsecure : (openedVolume umask).now.secureOwned 0 [1, 2] = false := by
    simp [Disk.secureOwned, openedVolume, createdFile, hmode]
  intro result hresult
  have herror : recoverSecretHandoff codec (openedVolume umask).now =
      .error ⟨"Secret handoff pending path is unsafe"⟩ := by
    show loadSecretHandoff codec (openedVolume umask).now true = _
    have hcleanup : cleanupPending (openedVolume umask).now = .error ⟨"Secret handoff pending path is unsafe"⟩ := by
      rw [cleanupPending, show (openedVolume umask).now.pending = some 0 from rfl]
      simp only [hinsecure, if_true]
    rw [loadSecretHandoff, hcleanup]
    rfl
  rw [herror] at hresult
  cases hresult

theorem read_oversized {d : Disk} {umask : ℕ} {text : Bytes} (hparent : d.parent = some true)
    (hpending : d.pending = none) (hfinal : d.final = some 0) (hfile : d.files 0 = publishedFile umask text)
    (hbound : maxHandoffBytes < text.length) (payload : Payload) : readSecretHandoff codec d ≠ .ok payload := by
  have hsecure : d.secureOwned 0 [1] = true := by
    have hplain : Plain (d.files 0) := hfile ▸ ⟨rfl, rfl, rfl, rfl⟩
    rw [secureOwned_iff hplain, Disk.links, hplain.otherLinks]
    simp [hpending, hfinal]
  have hcleanup : cleanupPending d = .ok d := by rw [cleanupPending, hpending]
  intro hread
  rw [readSecretHandoff, loadSecretHandoff, requireParent, hparent, hcleanup] at hread
  simp only [bind, Except.bind, pure, Except.pure, hfinal, hsecure, Bool.true_eq_false, if_false] at hread
  rw [if_pos (by rw [hfile]; exact hbound)] at hread
  cases hread

end

/-- The handoff of a payload is atomic and readable exactly when its text is within the bound of the
reader and the umask leaves the owner's bits. -/
theorem secret_handoff_atomic_iff {Payload : Type} (codec : Codec Payload) (umask : ℕ) (payload : Payload) :
    Atomic codec umask payload ↔
      (codec.dumps payload).length ≤ maxHandoffBytes ∧ createdMode umask = ownerOnly := by
  constructor
  · intro h
    constructor
    · by_contra hlong
      obtain ⟨v, hreach, hparent, hpending, hfinal, hfile⟩ := returned_reached umask (codec.dumps payload)
      exact read_oversized codec hparent hpending hfinal hfile (by omega) payload
        (h.readable emptyVolume v emptyVolume_settled emptyVolume_admits hreach)
    · by_contra hmode
      have hsurvives : Survives (openedVolume umask) (openedVolume umask).now :=
        ⟨Or.inl rfl, Or.inl rfl, Or.inl rfl, fun _ => Or.inl rfl, by simp [openedVolume, emptyVolume]⟩
      obtain ⟨d', value, hrecover, -⟩ := h.recovered emptyVolume _ _ _ emptyVolume_settled emptyVolume_admits rfl
        (opened_reached umask _) hsurvives
      exact recover_opened codec hmode _ hrecover
  · rintro ⟨hbound, hmode⟩
    refine ⟨fun v₀ v stage d h₀ hadmits hfinal hreach hd => ?_, fun v₀ v stage d h₀ hfinal hreach hd i hi =>
      (Whole.reached h₀ hfinal hreach).survives hd hi, fun v₀ v stage d i h₀ hfinal hreach hd => ?_,
      fun v₀ v h₀ hadmits hreach => ?_⟩
    · have hacceptable := (Safe.reached hmode h₀ hadmits hfinal hreach).acceptable hd
      exact hacceptable.recover (fun hnone => (hd.inside hnone).1)
        (fun i hi => (Whole.reached h₀ hfinal hreach).survives hd hi) hbound
    · obtain ⟨hstage, hnow, hstored, hfiles, hunsynced⟩ := Kept.reached h₀ hfinal hreach
      refine ⟨by rcases hstage with rfl | rfl | rfl <;> simp, ?_, ?_⟩
      · rcases hd.final with hf | hf
        · rw [hf, hnow]
        · rw [hf, hstored]
      · rcases hd.files i with hsame | ⟨mode, content, hlost, -⟩
        · rw [hsame, hfiles]
        · rw [hunsynced] at hlost
          cases hlost
    · have hfinal : v₀.now.final = none := by
        rcases hname : v₀.now.final with _ | i
        · rfl
        · have hstage := (Kept.reached h₀ hname hreach).stage
          simp at hstage
      have hsafe := Safe.reached hmode h₀ hadmits hfinal hreach
      have hwhole := Whole.reached h₀ hfinal hreach
      have hacceptable : Acceptable v.now := ⟨hsafe.parent.1, fun i hi => hsafe.pending i (Or.inl hi),
        fun i hi => hsafe.final i (Or.inl hi)⟩
      obtain ⟨-, i, hname, hcontent, -⟩ := hwhole.published rfl
      have hload := hacceptable.load (hwhole.parent.resolve_left (by simp)) (fun j hj => by
        obtain rfl := Option.some.inj (hname.symm.trans hj)
        exact hcontent) hbound false
      rw [readSecretHandoff, hload, hname]
      rfl

/-! ### A long review -/

/-- `{"review": "` and `"}` with the newline. -/
def opening : Bytes := [123, 34, 114, 101, 118, 105, 101, 119, 34, 58, 32, 34]

def closing : Bytes := [34, 125, 10]

/-- The text of the object whose only field is a review of so many letters `a`. -/
def reviewText (letters : ℕ) : Bytes := opening ++ List.replicate letters 97 ++ closing

theorem reviewText_length (letters : ℕ) : (reviewText letters).length = letters + 15 := by
  simp [reviewText, opening, closing]

def reviewCodec : Codec ℕ where
  dumps := reviewText
  loads bytes := if bytes = reviewText (bytes.length - 15) then .object (bytes.length - 15) else .undecodable
  loads_dumps letters := by rw [reviewText_length, Nat.add_sub_cancel, if_pos rfl]

/-- A review of one and a half million letters is published, and the reader refuses it. -/
theorem long_review_unreadable :
    ¬ ∀ (Payload : Type) (codec : Codec Payload) (umask : ℕ) (payload : Payload), Atomic codec umask payload := by
  intro hall
  obtain ⟨v, hreach, hparent, hpending, hfinal, hfile⟩ := returned_reached 63 (reviewText 1500000)
  have hlong : maxHandoffBytes < (reviewText 1500000).length := by
    rw [reviewText_length]
    decide
  exact read_oversized reviewCodec hparent hpending hfinal hfile hlong 1500000
    ((hall ℕ reviewCodec 63 1500000).readable emptyVolume v emptyVolume_settled emptyVolume_admits hreach)

end Anva.Handoff
