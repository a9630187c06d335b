import MultipleCiphers.Wal.Model

/-!
# Positions in the log

What the operations of the writer do to the numbers of frames, in whatever mode: which parts of the
state the loops of `walFrames` leave alone, which frames they overwrite, and where the log can go
back to. Nothing here depends on the content of the file, and an access to the file that fails does
not matter.

## Main definitions

* `WalState.Same` — what writing frames leaves as it is.
* `appendedPages` — the pages that get new frames.
* `WalState.Mark`, `WalState.Placed` — where a savepoint is, and the numbers between two operations.

## Main results

* `walWritePages_positions` — the loop over the dirty pages.
* `walWritePages_rule`, `walPadFrames_rule` — what each frame keeps, the loops keep.
* `WalState.Placed.step` — one operation of the writer.
-/

namespace MultipleCiphers

open Bytes

variable {P : Primitives} {s : WalState}

/-! ### What is left alone -/

/-- The state after an access to the file. -/
def WalState.withShim (s : WalState) (shim : Shim Bytes) : WalState := { s with shim }

/-- What writing frames leaves as it is. -/
structure WalState.Same (s t : WalState) : Prop where
  config : t.config = s.config
  codec : t.codec = s.codec
  live : t.live = s.live
  nCkpt : t.nCkpt = s.nCkpt
  savepoints : t.savepoints = s.savepoints
  mxFrame : t.hdr.mxFrame = s.hdr.mxFrame
  bigEndCksum : t.hdr.bigEndCksum = s.hdr.bigEndCksum
  aSalt : t.hdr.aSalt = s.hdr.aSalt
  numbers : t.frames.map Prod.fst = s.frames.map Prod.fst

namespace WalState

theorem Same.refl (s : WalState) : s.Same s := ⟨rfl, rfl, rfl, rfl, rfl, rfl, rfl, rfl, rfl⟩

theorem Same.trans {s t u : WalState} (h₁ : s.Same t) (h₂ : t.Same u) : s.Same u :=
  ⟨h₂.config.trans h₁.config, h₂.codec.trans h₁.codec, h₂.live.trans h₁.live,
    h₂.nCkpt.trans h₁.nCkpt, h₂.savepoints.trans h₁.savepoints, h₂.mxFrame.trans h₁.mxFrame,
    h₂.bigEndCksum.trans h₁.bigEndCksum, h₂.aSalt.trans h₁.aSalt, h₂.numbers.trans h₁.numbers⟩

theorem Same.withShim (s : WalState) (shim : Shim Bytes) : s.Same (s.withShim shim) :=
  ⟨rfl, rfl, rfl, rfl, rfl, rfl, rfl, rfl, rfl⟩

/-- The header may get another checksum. -/
theorem Same.cksum (s : WalState) (shim : Shim Bytes) (aFrameCksum : ℕ × ℕ) :
    s.Same { s with shim, hdr := { s.hdr with aFrameCksum } } :=
  ⟨rfl, rfl, rfl, rfl, rfl, rfl, rfl, rfl, rfl⟩

theorem Same.length_frames {t : WalState} (h : s.Same t) :
    t.frames.length = s.frames.length := by
  rw [← List.length_map (f := Prod.fst), h.numbers, List.length_map]

end WalState

theorem walPagerCodec_eq (s : WalState) (p : PgHdr) :
    ∃ aData shim, walPagerCodec P s p = (aData, s.withShim shim) := ⟨_, _, rfl⟩

theorem walWriteToLog_eq (s : WalState) (iSyncPoint : ℕ) (pContent : Bytes) (iOffset : ℕ) :
    ∃ shim, walWriteToLog P s iSyncPoint pContent iOffset = s.withShim shim := by
  rw [walWriteToLog]
  split
  · by_cases hrest : pContent.length - (iSyncPoint - iOffset) = 0
    · simp only [hrest, if_true]
      exact ⟨_, rfl⟩
    · simp only [hrest, if_false]
      exact ⟨_, rfl⟩
  · exact ⟨_, rfl⟩

/-- The header of a frame. A checksum is computed unless it is left for later. -/
theorem walEncodeFrame_eq (s : WalState) (hsalt : s.hdr.aSalt.length = 8) (iPage nTruncate : ℕ)
    (aData : Bytes) :
    ∃ header aFrameCksum, walEncodeFrame s iPage nTruncate aData =
        (header, { s with hdr := { s.hdr with aFrameCksum } }) ∧
      header.length = 24 ∧ slice header 0 4 = put4byte iPage ∧
      let new := walChecksumBytes s.hdr.bigEndCksum aData
        (walChecksumBytes s.hdr.bigEndCksum (put4byte iPage ++ put4byte nTruncate)
          s.hdr.aFrameCksum)
      (s.iReCksum = 0 → aFrameCksum = new ∧
        header = put4byte iPage ++ put4byte nTruncate ++ s.hdr.aSalt ++ put4byte new.1 ++
          put4byte new.2) := by
  by_cases hre : s.iReCksum = 0
  · refine ⟨_, _, by rw [walEncodeFrame, if_pos hre], ?_, ?_, fun _ => ⟨rfl, rfl⟩⟩
    · simp [hsalt]
    · rw [List.append_assoc, List.append_assoc, List.append_assoc, slice_append_left _ le_rfl,
        slice_full (length_put4byte _)]
  · refine ⟨_, s.hdr.aFrameCksum, by rw [walEncodeFrame, if_neg hre], rfl, ?_,
      fun h => absurd h hre⟩
    rw [List.append_assoc, slice_append_left _ le_rfl, slice_full (length_put4byte _)]

theorem walEncodeFrame_same (s : WalState) (iPage nTruncate : ℕ) (aData : Bytes) :
    ∃ header aFrameCksum, walEncodeFrame s iPage nTruncate aData =
      (header, { s with hdr := { s.hdr with aFrameCksum } }) := by
  rw [walEncodeFrame]
  split
  · exact ⟨_, _, rfl⟩
  · exact ⟨_, s.hdr.aFrameCksum, rfl⟩

theorem walWriteOneFrame_eq (s : WalState) (iSyncPoint : ℕ) (p : PgHdr) (nTruncate iOffset : ℕ) :
    ∃ shim aFrameCksum, walWriteOneFrame P s iSyncPoint p nTruncate iOffset =
      { s with shim, hdr := { s.hdr with aFrameCksum } } := by
  obtain ⟨aData, shim₁, h₁⟩ := walPagerCodec_eq (P := P) s p
  obtain ⟨header, cksum, h₂⟩ := walEncodeFrame_same (s.withShim shim₁) p.pgno nTruncate aData
  rw [walWriteOneFrame, h₁]
  simp only [h₂]
  obtain ⟨shim₃, h₃⟩ := walWriteToLog_eq (P := P) { s.withShim shim₁ with
    hdr := { (s.withShim shim₁).hdr with aFrameCksum := cksum } } iSyncPoint header iOffset
  rw [h₃]
  obtain ⟨shim₄, h₄⟩ := walWriteToLog_eq (P := P) (WalState.withShim { s.withShim shim₁ with
    hdr := { (s.withShim shim₁).hdr with aFrameCksum := cksum } } shim₃) iSyncPoint aData
    (iOffset + walFrameHeaderSize)
  rw [h₄]
  exact ⟨shim₄, cksum, rfl⟩

/-! ### The loops of `walFrames` -/

/-- A frame that is found holds the page. -/
theorem walFindFrame_spec (s : WalState) (pgno n : ℕ) :
    walFindFrame s pgno n ≤ n ∧ (walFindFrame s pgno n ≠ 0 →
      s.frames[walFindFrame s pgno n - 1]?.map Prod.fst = some pgno) := by
  induction n with
  | zero => exact ⟨le_rfl, fun h => absurd rfl h⟩
  | succ n ih =>
    rw [walFindFrame]
    split
    · rename_i hfound
      exact ⟨le_rfl, fun _ => hfound⟩
    · exact ⟨ih.1.trans (Nat.le_succ n), ih.2⟩

theorem walFindFrame_congr {t : WalState}
    (hnumbers : t.frames.map Prod.fst = s.frames.map Prod.fst) (pgno n : ℕ) :
    walFindFrame t pgno n = walFindFrame s pgno n := by
  induction n with
  | zero => rfl
  | succ n ih =>
    have hn : t.frames[n]?.map Prod.fst = s.frames[n]?.map Prod.fst := by
      rw [← List.getElem?_map, hnumbers, List.getElem?_map]
    rw [walFindFrame, walFindFrame, hn, ih]

/-- The frame that is overwritten is one of the transaction. -/
theorem overwritten_spec {iFirst pgno : ℕ} (h : overwritten s iFirst pgno ≠ 0) :
    iFirst ≠ 0 ∧ iFirst ≤ overwritten s iFirst pgno ∧
      overwritten s iFirst pgno ≤ s.hdr.mxFrame ∧
      s.frames[overwritten s iFirst pgno - 1]?.map Prod.fst = some pgno := by
  obtain ⟨hle, hfind⟩ := walFindFrame_spec s pgno s.hdr.mxFrame
  by_cases hcond : iFirst ≠ 0 ∧ walFindFrame s pgno s.hdr.mxFrame ≥ iFirst
  · rw [overwritten, if_pos hcond] at h ⊢
    exact ⟨hcond.1, hcond.2, hle, hfind h⟩
  · rw [overwritten, if_neg hcond] at h
    exact absurd rfl h

/-- The pages that get new frames; the others are in frames of the transaction. -/
def appendedPages (s : WalState) (iFirst : ℕ) (isCommit : Bool) : List PgHdr → List PgHdr
  | [] => []
  | p :: pDirty =>
    if (pDirty ≠ [] ∨ isCommit = false) ∧ overwritten s iFirst p.pgno ≠ 0 then
      appendedPages s iFirst isCommit pDirty
    else p :: appendedPages s iFirst isCommit pDirty

/-- Which pages get new frames depends on the numbers of the pages only. -/
theorem appendedPages_congr {t : WalState} (hmx : t.hdr.mxFrame = s.hdr.mxFrame)
    (hnumbers : t.frames.map Prod.fst = s.frames.map Prod.fst) (iFirst : ℕ) (isCommit : Bool)
    (pList : List PgHdr) :
    appendedPages t iFirst isCommit pList = appendedPages s iFirst isCommit pList := by
  induction pList with
  | nil => rfl
  | cons p pDirty ih =>
    rw [appendedPages, appendedPages, overwritten, overwritten, hmx,
      walFindFrame_congr hnumbers, ih]

theorem mem_of_mem_appendedPages {iFirst : ℕ} {isCommit : Bool} {pList : List PgHdr} {p : PgHdr}
    (h : p ∈ appendedPages s iFirst isCommit pList) : p ∈ pList := by
  induction pList with
  | nil => exact h
  | cons q pDirty ih =>
    rw [appendedPages] at h
    split at h
    · exact List.mem_cons_of_mem q (ih h)
    · rcases List.mem_cons.mp h with rfl | hmem
      · exact List.mem_cons_self
      · exact List.mem_cons_of_mem q (ih hmem)

/-- A page is put into a frame of the transaction. -/
theorem walOverwrite_eq (s : WalState) (iWrite : ℕ) (p : PgHdr) :
    ∃ shim, walOverwrite P s iWrite p = { s with
      iReCksum := if s.iReCksum = 0 ∨ iWrite < s.iReCksum then iWrite else s.iReCksum
      shim
      frames := s.frames.set (iWrite - 1) p.frame } := by
  by_cases hre : s.iReCksum = 0 ∨ iWrite < s.iReCksum
  · rw [walOverwrite]
    simp only [if_pos hre]
    exact ⟨_, rfl⟩
  · rw [walOverwrite]
    simp only [if_neg hre]
    exact ⟨_, rfl⟩

theorem walOverwrite_same {iWrite : ℕ} {p : PgHdr}
    (hfind : s.frames[iWrite - 1]?.map Prod.fst = some p.pgno) :
    s.Same (walOverwrite P s iWrite p) := by
  obtain ⟨shim, h⟩ := walOverwrite_eq (P := P) s iWrite p
  rw [h]
  refine ⟨rfl, rfl, rfl, rfl, rfl, rfl, rfl, rfl, ?_⟩
  show (s.frames.set (iWrite - 1) p.frame).map Prod.fst = s.frames.map Prod.fst
  have hold : (s.frames.map Prod.fst)[iWrite - 1]? = some p.pgno := by
    rw [List.getElem?_map]
    exact hfind
  refine List.ext_getElem? fun i => ?_
  rw [List.map_set, List.getElem?_set]
  by_cases hi : iWrite - 1 = i
  · rw [if_pos hi, ← hi, hold, if_pos (List.getElem?_eq_some_iff.mp hold).1]
    rfl
  · rw [if_neg hi]

/-- **The dirty pages.** They get new frames or are put into frames of the transaction; the first of
these is where checksums have to be made up for. -/
theorem walWritePages_positions (s : WalState) (iFirst nTruncate iFrame : ℕ) (isCommit : Bool)
    (pList : List PgHdr) :
    let r := walWritePages P iFirst nTruncate isCommit iFrame pList s
    s.Same r.2 ∧ r.1 = appendedPages s iFirst isCommit pList ∧
      (r.2.iReCksum = s.iReCksum ∨ iFirst ≠ 0 ∧ iFirst ≤ r.2.iReCksum ∧
        r.2.iReCksum ≤ s.hdr.mxFrame) ∧
      ∀ i, r.2.iReCksum = 0 ∨ i < r.2.iReCksum → s.iReCksum = 0 ∨ i < s.iReCksum := by
  induction pList generalizing s iFrame with
  | nil => exact ⟨WalState.Same.refl s, rfl, .inl rfl, fun i hi => hi⟩
  | cons p pDirty ih =>
    by_cases hover : (pDirty ≠ [] ∨ isCommit = false) ∧ overwritten s iFirst p.pgno ≠ 0
    · obtain ⟨iWrite, hiWrite⟩ : ∃ n, overwritten s iFirst p.pgno = n := ⟨_, rfl⟩
      obtain ⟨hne, hge, hle, hfind⟩ := overwritten_spec hover.2
      rw [hiWrite] at hge hle hfind
      have hsame₁ := walOverwrite_same (P := P) hfind
      obtain ⟨shim, heq⟩ := walOverwrite_eq (P := P) s iWrite p
      obtain ⟨t, ht⟩ : ∃ t, walOverwrite P s iWrite p = t := ⟨_, rfl⟩
      rw [ht] at hsame₁ heq
      have hre₁ : t.iReCksum = if s.iReCksum = 0 ∨ iWrite < s.iReCksum then iWrite
          else s.iReCksum := by rw [heq]
      obtain ⟨hsame₂, happended, hre₂, hsum₂⟩ := ih t iFrame
      have hzero : iWrite ≠ 0 := by
        rw [← hiWrite]
        exact hover.2
      have hr : walWritePages P iFirst nTruncate isCommit iFrame (p :: pDirty) s =
          walWritePages P iFirst nTruncate isCommit iFrame pDirty t := by
        rw [walWritePages]
        simp only [hover.1, if_true, hiWrite, ne_eq, hzero, not_false_eq_true, ht]
      rw [hr]
      refine ⟨hsame₁.trans hsame₂, ?_, ?_, ?_⟩
      · rw [appendedPages, if_pos hover, ← appendedPages_congr hsame₁.mxFrame hsame₁.numbers]
        exact happended
      · rcases hre₂ with heq₂ | ⟨-, hge₂, hle₂⟩
        · rw [heq₂, hre₁]
          split
          · exact .inr ⟨hne, hge, hle⟩
          · exact .inl rfl
        · exact .inr ⟨hne, hge₂, hsame₁.mxFrame ▸ hle₂⟩
      · intro i hi
        have hi₁ := hsum₂ i hi
        rw [hre₁] at hi₁
        split at hi₁ <;> omega
    · obtain ⟨shim, cksum, heq⟩ := walWriteOneFrame_eq (P := P) s 0 p
        (if isCommit = true ∧ pDirty = [] then nTruncate else 0)
        (s.config.walFrameOffset (iFrame + 1))
      obtain ⟨t, ht⟩ : ∃ t, walWriteOneFrame P s 0 p
        (if isCommit = true ∧ pDirty = [] then nTruncate else 0)
        (s.config.walFrameOffset (iFrame + 1)) = t := ⟨_, rfl⟩
      rw [ht] at heq
      have hsame₁ : s.Same t := by
        rw [heq]
        exact WalState.Same.cksum s shim cksum
      obtain ⟨hsame₂, happended, hre₂, hsum₂⟩ := ih t (iFrame + 1)
      have hre₁ : t.iReCksum = s.iReCksum := by rw [heq]
      have hzero : (if pDirty ≠ [] ∨ isCommit = false then overwritten s iFirst p.pgno else 0) =
          0 := by
        split
        · rename_i hcond
          by_contra hne
          exact hover ⟨hcond, hne⟩
        · rfl
      have hr : walWritePages P iFirst nTruncate isCommit iFrame (p :: pDirty) s =
          (p :: (walWritePages P iFirst nTruncate isCommit (iFrame + 1) pDirty t).1,
            (walWritePages P iFirst nTruncate isCommit (iFrame + 1) pDirty t).2) := by
        rw [walWritePages]
        simp only [hzero, ne_eq, not_true_eq_false, if_false, ht]
      rw [hr]
      refine ⟨hsame₁.trans hsame₂, ?_, ?_, ?_⟩
      · rw [appendedPages, if_neg hover, ← appendedPages_congr hsame₁.mxFrame hsame₁.numbers]
        exact congrArg (p :: ·) happended
      · rw [← hre₁, ← hsame₁.mxFrame]
        exact hre₂
      · rw [← hre₁]
        exact hsum₂

/-- **The rule for the dirty pages.** What each frame keeps that is appended or overwritten, the
loop keeps. `I` is about the frames of the wal-index and those that were appended. -/
theorem walWritePages_rule {I : WalState → List (ℕ × Bytes) → Prop} (iFirst nTruncate : ℕ)
    (isCommit : Bool) {pList : List PgHdr}
    (happend : ∀ (s : WalState) (frames : List (ℕ × Bytes)), ∀ p ∈ pList, ∀ nDbSize, I s frames →
      I (walWriteOneFrame P s 0 p nDbSize (s.config.walFrameOffset (frames.length + 1)))
        (frames ++ [p.frame]))
    (hover : ∀ (s : WalState) (acc : List (ℕ × Bytes)), ∀ p ∈ pList, ∀ iWrite, 0 < iWrite →
      iWrite ≤ s.frames.length → s.frames[iWrite - 1]?.map Prod.fst = some p.pgno →
      I s (s.frames ++ acc) →
        I (walOverwrite P s iWrite p) ((walOverwrite P s iWrite p).frames ++ acc))
    {acc : List (ℕ × Bytes)} {iFrame : ℕ} (hI : I s (s.frames ++ acc))
    (hframe : (s.frames ++ acc).length = iFrame) (hlen : s.frames.length = s.hdr.mxFrame) :
    let r := walWritePages P iFirst nTruncate isCommit iFrame pList s
    I r.2 (r.2.frames ++ acc ++ r.1.map PgHdr.frame) := by
  induction pList generalizing s acc iFrame with
  | nil =>
    show I s (s.frames ++ acc ++ [])
    rw [List.append_nil]
    exact hI
  | cons p pDirty ih =>
    have happend' := fun s frames q hq => happend s frames q (List.mem_cons_of_mem p hq)
    have hover' := fun s acc q hq => hover s acc q (List.mem_cons_of_mem p hq)
    obtain ⟨iWrite, hiWrite⟩ : ∃ n, (if pDirty ≠ [] ∨ isCommit = false then
      overwritten s iFirst p.pgno else 0) = n := ⟨_, rfl⟩
    by_cases hzero : iWrite = 0
    · -- the page gets a new frame
      obtain ⟨shim, cksum, heq⟩ := walWriteOneFrame_eq (P := P) s 0 p
        (if isCommit = true ∧ pDirty = [] then nTruncate else 0)
        (s.config.walFrameOffset (iFrame + 1))
      have hI₁ := happend s (s.frames ++ acc) p List.mem_cons_self
        (if isCommit = true ∧ pDirty = [] then nTruncate else 0) hI
      obtain ⟨t, ht⟩ : ∃ t, walWriteOneFrame P s 0 p
        (if isCommit = true ∧ pDirty = [] then nTruncate else 0)
        (s.config.walFrameOffset (iFrame + 1)) = t := ⟨_, rfl⟩
      rw [ht] at heq
      have hframes₁ : t.frames = s.frames := by rw [heq]
      rw [hframe, ht, List.append_assoc, ← hframes₁] at hI₁
      have hr : walWritePages P iFirst nTruncate isCommit iFrame (p :: pDirty) s =
          (p :: (walWritePages P iFirst nTruncate isCommit (iFrame + 1) pDirty t).1,
            (walWritePages P iFirst nTruncate isCommit (iFrame + 1) pDirty t).2) := by
        rw [walWritePages]
        simp only [hiWrite, hzero, ne_eq, not_true_eq_false, if_false, ht]
      have hframe₁ : (t.frames ++ (acc ++ [p.frame])).length = iFrame + 1 := by
        rw [hframes₁, ← List.append_assoc, List.length_append, hframe]
        rfl
      have hI₂ := ih happend' hover' hI₁ hframe₁ (by rw [hframes₁, hlen, heq])
      intro r
      rw [show r = _ from hr, List.map_cons, List.append_cons, List.append_assoc _ acc]
      exact hI₂
    · -- the page is in a frame of the transaction
      have hfound : overwritten s iFirst p.pgno = iWrite := by
        split at hiWrite
        · exact hiWrite
        · exact absurd hiWrite.symm hzero
      obtain ⟨-, -, hle, hfind⟩ := overwritten_spec
        (show overwritten s iFirst p.pgno ≠ 0 by rwa [hfound])
      rw [hfound] at hle hfind
      have hsame₁ := walOverwrite_same (P := P) hfind
      have hI₁ := hover s acc p List.mem_cons_self iWrite (Nat.pos_of_ne_zero hzero) (hlen ▸ hle)
        hfind hI
      obtain ⟨t, ht⟩ : ∃ t, walOverwrite P s iWrite p = t := ⟨_, rfl⟩
      rw [ht] at hI₁ hsame₁
      have hr : walWritePages P iFirst nTruncate isCommit iFrame (p :: pDirty) s =
          walWritePages P iFirst nTruncate isCommit iFrame pDirty t := by
        rw [walWritePages]
        simp only [hiWrite, ne_eq, hzero, not_false_eq_true, if_true, ht]
      have hframe₁ : (t.frames ++ acc).length = iFrame := by
        rw [List.length_append, hsame₁.length_frames, ← List.length_append, hframe]
      rw [hr]
      exact ih happend' hover' hI₁ hframe₁ (by rw [hsame₁.length_frames, hlen, hsame₁.mxFrame])

theorem rewriteFrames_same (n iRead : ℕ) (s : WalState) :
    s.Same (rewriteFrames P n iRead s).2 ∧ (rewriteFrames P n iRead s).2.frames = s.frames ∧
      (rewriteFrames P n iRead s).2.iReCksum = s.iReCksum := by
  induction n generalizing s iRead with
  | zero => exact ⟨WalState.Same.refl s, rfl, rfl⟩
  | succ n ih =>
    obtain ⟨rc, aBuf, shim, hread⟩ : ∃ rc aBuf shim, s.readFrame P iRead =
      (rc, aBuf, s.withShim shim) := ⟨_, _, _, rfl⟩
    by_cases hrc : rc = .ok
    · obtain ⟨header, cksum, hencode⟩ := walEncodeFrame_same (s.withShim shim)
        (get4byte (slice aBuf 0 4)) (get4byte (slice aBuf 4 4)) (aBuf.drop walFrameHeaderSize)
      obtain ⟨t, ht⟩ : ∃ t, t = WalState.write P { s.withShim shim with
        hdr := { (s.withShim shim).hdr with aFrameCksum := cksum } } header
        (s.config.walFrameOffset iRead) := ⟨_, rfl⟩
      have hr : rewriteFrames P (n + 1) iRead s = rewriteFrames P n (iRead + 1) t := by
        rw [rewriteFrames, hread, hrc, ht]
        simp only [hencode]
        rfl
      have hsame : s.Same t := by
        rw [ht]
        exact WalState.Same.cksum s _ cksum
      obtain ⟨hsame', hframes', hre'⟩ := ih (iRead + 1) t
      rw [hr]
      refine ⟨hsame.trans hsame', hframes'.trans (by rw [ht]; rfl), hre'.trans (by rw [ht]; rfl)⟩
    · have hr : rewriteFrames P (n + 1) iRead s = (rc, s.withShim shim) := by
        rw [rewriteFrames, hread]
        split
        · rename_i heq
          exact absurd (congrArg Prod.fst heq) hrc
        · rename_i heq
          cases heq
          rfl
      rw [hr]
      exact ⟨WalState.Same.withShim s shim, rfl, rfl⟩

theorem walRewriteChecksums_same (s : WalState) (iLast : ℕ) :
    s.Same (walRewriteChecksums P s iLast).2 ∧
      (walRewriteChecksums P s iLast).2.frames = s.frames ∧
      (walRewriteChecksums P s iLast).2.iReCksum = 0 := by
  obtain ⟨rc, aBuf, shim, hread⟩ : ∃ rc aBuf shim, s.read P 8
    (if s.iReCksum = 1 then 24 else s.config.walFrameOffset (s.iReCksum - 1) + 16) =
      (rc, aBuf, s.withShim shim) := ⟨_, _, _, rfl⟩
  rw [walRewriteChecksums]
  simp only [hread]
  have hsame : s.Same { s.withShim shim with
      hdr := { s.hdr with
        aFrameCksum := (get4byte (slice aBuf 0 4), get4byte (slice aBuf 4 4)) }
      iReCksum := 0 } :=
    ⟨rfl, rfl, rfl, rfl, rfl, rfl, rfl, rfl, rfl⟩
  split
  · obtain ⟨hsame', hframes', hre'⟩ := rewriteFrames_same (P := P) (iLast + 1 - s.iReCksum)
      s.iReCksum { s.withShim shim with
        hdr := { s.hdr with
          aFrameCksum := (get4byte (slice aBuf 0 4), get4byte (slice aBuf 4 4)) }
        iReCksum := 0 }
    exact ⟨hsame.trans hsame', hframes', hre'⟩
  · exact ⟨hsame, rfl, rfl⟩

theorem walPadFrames_same (iSyncPoint : ℕ) (pLast : PgHdr) (nTruncate fuel iFrame : ℕ)
    (s : WalState) :
    s.Same (walPadFrames P iSyncPoint pLast nTruncate fuel iFrame s).2 ∧
      (walPadFrames P iSyncPoint pLast nTruncate fuel iFrame s).2.frames = s.frames ∧
      (walPadFrames P iSyncPoint pLast nTruncate fuel iFrame s).2.iReCksum = s.iReCksum := by
  induction fuel generalizing s iFrame with
  | zero => exact ⟨WalState.Same.refl s, rfl, rfl⟩
  | succ fuel ih =>
    by_cases hsync : s.config.walFrameOffset (iFrame + 1) < iSyncPoint
    · rw [walPadFrames]
      obtain ⟨shim, cksum, heq⟩ := walWriteOneFrame_eq (P := P) s iSyncPoint pLast nTruncate
        (s.config.walFrameOffset (iFrame + 1))
      simp only [if_pos hsync, heq]
      obtain ⟨hsame, hframes, hre⟩ := ih (iFrame + 1)
        { s with shim, hdr := { s.hdr with aFrameCksum := cksum } }
      exact ⟨(WalState.Same.cksum s shim cksum).trans hsame, hframes, hre⟩
    · have hr : walPadFrames P iSyncPoint pLast nTruncate (fuel + 1) iFrame s = (0, s) := by
        rw [walPadFrames]
        simp only [if_neg hsync]
      rw [hr]
      exact ⟨WalState.Same.refl s, rfl, rfl⟩

/-- **The rule for the frames that repeat the last page.** -/
theorem walPadFrames_rule {I : WalState → List (ℕ × Bytes) → Prop} {iSyncPoint nTruncate : ℕ}
    {pLast : PgHdr}
    (hstep : ∀ (s : WalState) (frames : List (ℕ × Bytes)), I s frames →
      s.config.walFrameOffset (frames.length + 1) < iSyncPoint →
      I (walWriteOneFrame P s iSyncPoint pLast nTruncate
        (s.config.walFrameOffset (frames.length + 1))) (frames ++ [pLast.frame]))
    {frames : List (ℕ × Bytes)} {fuel iFrame : ℕ} (hI : I s frames)
    (hframe : frames.length = iFrame) :
    let r := walPadFrames P iSyncPoint pLast nTruncate fuel iFrame s
    I r.2 (frames ++ List.replicate r.1 pLast.frame) := by
  induction fuel generalizing s frames iFrame with
  | zero =>
    show I s (frames ++ [])
    rw [List.append_nil]
    exact hI
  | succ fuel ih =>
    by_cases hsync : s.config.walFrameOffset (iFrame + 1) < iSyncPoint
    · have hI₁ := hstep s frames hI (by rw [hframe]; exact hsync)
      obtain ⟨t, ht⟩ : ∃ t, walWriteOneFrame P s iSyncPoint pLast nTruncate
        (s.config.walFrameOffset (iFrame + 1)) = t := ⟨_, rfl⟩
      rw [hframe, ht] at hI₁
      have hI₂ := ih hI₁ (show _ = iFrame + 1 by rw [List.length_append, hframe]; rfl)
      have hr : walPadFrames P iSyncPoint pLast nTruncate (fuel + 1) iFrame s =
          ((walPadFrames P iSyncPoint pLast nTruncate fuel (iFrame + 1) t).1 + 1,
            (walPadFrames P iSyncPoint pLast nTruncate fuel (iFrame + 1) t).2) := by
        rw [walPadFrames]
        simp only [hsync, if_true, ht]
      intro r
      rw [show r = _ from hr, List.replicate_succ, List.append_cons]
      exact hI₂
    · have hr : walPadFrames P iSyncPoint pLast nTruncate (fuel + 1) iFrame s = (0, s) := by
        rw [walPadFrames]
        simp only [hsync, if_false]
      intro r
      rw [show r = _ from hr, List.replicate_zero, List.append_nil]
      exact hI

theorem walLimitSize_same (s : WalState) (nMax : ℕ) :
    ∃ shim, walLimitSize s nMax = s.withShim shim ∧
      (shim.real = s.shim.real ∨ shim.real = s.shim.real.take nMax) := by
  rw [walLimitSize]
  split
  · exact ⟨_, rfl, .inr rfl⟩
  · exact ⟨_, rfl, .inl rfl⟩

/-- What is done when the frames of a commit are written: the last page may be repeated, and the
size of the file be limited. -/
theorem walFinish_eq (s : WalState) (appended : List PgHdr) (nTruncate iFrame : ℕ) (sync : Bool) :
    ∃ pad, (pad = (0, s) ∨ ∃ pLast, appended.getLast? = some pLast ∧
        (sync = true ∧ s.config.padToSectorBoundary = true) ∧
        pad = walPadFrames P ((s.config.walFrameOffset (iFrame + 1) + s.config.sectorSize - 1) /
          s.config.sectorSize * s.config.sectorSize) pLast nTruncate s.config.sectorSize iFrame s) ∧
      walFinish P s appended nTruncate iFrame sync =
        if pad.2.truncateOnCommit = true ∧ s.config.mxWalSize ≥ 0 then
          (pad.1, { walLimitSize pad.2 (max s.config.mxWalSize.toNat
            (s.config.walFrameOffset (iFrame + pad.1 + 1))) with truncateOnCommit := false })
        else pad := by
  obtain ⟨pad, hpad⟩ : ∃ pad, pad = appended.getLast?.elim (0, s) (fun pLast =>
      if sync = true ∧ s.config.padToSectorBoundary = true then
        walPadFrames P ((s.config.walFrameOffset (iFrame + 1) + s.config.sectorSize - 1) /
          s.config.sectorSize * s.config.sectorSize) pLast nTruncate s.config.sectorSize iFrame s
      else (0, s)) := ⟨_, rfl⟩
  have hcases : pad = (0, s) ∨ ∃ pLast, appended.getLast? = some pLast ∧
      (sync = true ∧ s.config.padToSectorBoundary = true) ∧
      pad = walPadFrames P ((s.config.walFrameOffset (iFrame + 1) + s.config.sectorSize - 1) /
        s.config.sectorSize * s.config.sectorSize) pLast nTruncate s.config.sectorSize iFrame
        s := by
    cases hlast : appended.getLast? with
    | none =>
      rw [hlast] at hpad
      exact .inl hpad
    | some pLast =>
      rw [hlast] at hpad
      rw [Option.elim_some] at hpad
      split at hpad
      · rename_i hon
        exact .inr ⟨pLast, rfl, hon, hpad⟩
      · exact .inl hpad
  have hconfig : pad.2.config = s.config := by
    rcases hcases with rfl | ⟨pLast, -, -, rfl⟩
    · rfl
    · exact (walPadFrames_same _ _ _ _ _ _).1.config
  refine ⟨pad, hcases, ?_⟩
  rw [← hconfig, hpad]
  cases hlast : appended.getLast? <;> simp only [walFinish, hlast] <;> rfl

theorem walFinish_same (s : WalState) (appended : List PgHdr) (nTruncate iFrame : ℕ)
    (sync : Bool) :
    s.Same (walFinish P s appended nTruncate iFrame sync).2 ∧
      (walFinish P s appended nTruncate iFrame sync).2.frames = s.frames ∧
      (walFinish P s appended nTruncate iFrame sync).2.iReCksum = s.iReCksum ∧
      (repeatedFrames appended (walFinish P s appended nTruncate iFrame sync).1).length =
        (walFinish P s appended nTruncate iFrame sync).1 := by
  obtain ⟨pad, hpad, hfinish⟩ := walFinish_eq (P := P) s appended nTruncate iFrame sync
  have hpadded : s.Same pad.2 ∧ pad.2.frames = s.frames ∧ pad.2.iReCksum = s.iReCksum ∧
      (repeatedFrames appended pad.1).length = pad.1 := by
    rcases hpad with rfl | ⟨pLast, hlast, -, rfl⟩
    · refine ⟨WalState.Same.refl s, rfl, rfl, ?_⟩
      rw [repeatedFrames]
      split <;> rfl
    · obtain ⟨hsame, hframes, hre⟩ := walPadFrames_same (P := P)
        ((s.config.walFrameOffset (iFrame + 1) + s.config.sectorSize - 1) / s.config.sectorSize *
          s.config.sectorSize) pLast nTruncate s.config.sectorSize iFrame s
      refine ⟨hsame, hframes, hre, ?_⟩
      rw [repeatedFrames, hlast]
      exact List.length_replicate
  obtain ⟨hsame, hframes, hre, hlen⟩ := hpadded
  rw [hfinish]
  split
  · obtain ⟨shim, hlimit, -⟩ := walLimitSize_same pad.2 (max s.config.mxWalSize.toNat
      (s.config.walFrameOffset (iFrame + pad.1 + 1)))
    rw [hlimit]
    exact ⟨hsame.trans ⟨rfl, rfl, rfl, rfl, rfl, rfl, rfl, rfl, rfl⟩, hframes, hre, hlen⟩
  · exact ⟨hsame, hframes, hre, hlen⟩

/-- The header of the log is written, if there are no frames. -/
theorem walBegin_positions (s : WalState) {randomSalt : Bytes} (hsalt : s.hdr.aSalt.length = 8)
    (hrandom : randomSalt.length = 8) :
    let t := walBegin P s randomSalt
    t.config = s.config ∧ t.codec = s.codec ∧ t.live = s.live ∧ t.nCkpt = s.nCkpt ∧
      t.savepoints = s.savepoints ∧ t.hdr.mxFrame = s.hdr.mxFrame ∧ t.frames = s.frames ∧
      t.iReCksum = s.iReCksum ∧ t.hdr.aSalt.length = 8 := by
  by_cases hzero : s.hdr.mxFrame = 0
  · rw [walBegin]
    simp only [if_pos hzero]
    refine ⟨rfl, rfl, rfl, rfl, rfl, rfl, rfl, rfl, ?_⟩
    show (if s.nCkpt = 0 then randomSalt else s.hdr.aSalt).length = 8
    split
    · exact hrandom
    · exact hsalt
  · rw [walBegin, if_neg hzero]
    exact ⟨rfl, rfl, rfl, rfl, rfl, rfl, rfl, rfl, hsalt⟩

/-! ### Between two operations -/

/-- A savepoint is in the part of the log that the transaction has written, or from before a
restart. -/
structure WalState.Mark (s : WalState) (sp : WalSavepoint) : Prop where
  nCkpt_le : sp.nCkpt ≤ s.nCkpt
  live_le : sp.nCkpt = s.nCkpt → s.live.mxFrame ≤ sp.mxFrame
  le_mxFrame : sp.nCkpt = s.nCkpt → sp.mxFrame ≤ s.hdr.mxFrame
  restarted : sp.nCkpt ≠ s.nCkpt → s.live.mxFrame = 0

/-- The numbers of the log between two operations. -/
structure WalState.Placed (s : WalState) : Prop where
  length : s.frames.length = s.hdr.mxFrame
  reCksum_le : s.iReCksum ≤ s.hdr.mxFrame
  reCksum_live : s.iReCksum ≠ 0 → s.live.mxFrame < s.iReCksum
  live_le : s.live.mxFrame ≤ s.hdr.mxFrame
  aSalt : s.hdr.aSalt.length = 8
  live_aSalt : s.live.aSalt.length = 8
  savepoint : ∀ sp ∈ s.savepoints, s.Mark sp
  ordered : s.savepoints.Pairwise fun sp sp' =>
    sp.nCkpt ≤ sp'.nCkpt ∧ (sp.nCkpt = sp'.nCkpt → sp.mxFrame ≤ sp'.mxFrame)

namespace WalState.Placed

/-- The numbers behind frames of the transaction. -/
theorem grow {t : WalState} (h : s.Placed) (hlive : t.live = s.live) (hnCkpt : t.nCkpt = s.nCkpt)
    (hsp : t.savepoints = s.savepoints) (hlen : t.frames.length = t.hdr.mxFrame)
    (hmx : s.hdr.mxFrame ≤ t.hdr.mxFrame) (hle : t.iReCksum ≤ t.hdr.mxFrame)
    (hre : t.iReCksum ≠ 0 → s.live.mxFrame < t.iReCksum) (hsalt : t.hdr.aSalt.length = 8) :
    t.Placed := by
  refine ⟨hlen, hle, hlive ▸ hre, hlive ▸ h.live_le.trans hmx, hsalt, hlive ▸ h.live_aSalt, ?_,
    hsp ▸ h.ordered⟩
  intro sp hmem
  have hmark := h.savepoint sp (hsp ▸ hmem)
  refine ⟨hnCkpt ▸ hmark.nCkpt_le, ?_, ?_, ?_⟩
  · rw [hnCkpt, hlive]
    exact hmark.live_le
  · rw [hnCkpt]
    exact fun heq => (hmark.le_mxFrame heq).trans hmx
  · rw [hnCkpt, hlive]
    exact hmark.restarted

/-- The numbers after a commit. -/
theorem committed {t : WalState} (hlive : t.live = t.hdr) (hlen : t.frames.length = t.hdr.mxFrame)
    (hre : t.iReCksum = 0) (hsalt : t.hdr.aSalt.length = 8) (hsp : t.savepoints = []) :
    t.Placed := by
  refine ⟨hlen, ?_, fun hne => absurd hre hne, ?_, hsalt, hlive ▸ hsalt, ?_, ?_⟩
  · rw [hre]
    exact Nat.zero_le _
  · rw [hlive]
  · rw [hsp]
    exact fun sp hmem => absurd hmem List.not_mem_nil
  · rw [hsp]
    exact List.Pairwise.nil

/-- **The log is restarted.** -/
theorem restart (h : s.Placed) (hlive : s.hdr = s.live) (salt1 : ℕ) (truncate : Bool) :
    (walRestartHdr s salt1 truncate).Placed := by
  have hre : s.iReCksum = 0 := by
    by_contra hne
    have hlt := h.reCksum_live hne
    have hle := h.reCksum_le
    rw [← hlive] at hlt
    omega
  refine ⟨rfl, hre.le, fun hne => absurd hre hne, le_rfl, rfl, rfl, ?_, h.ordered⟩
  intro sp hmem
  -- a savepoint that is kept over the restart goes back to the start of the log
  have hle := (h.savepoint sp hmem).nCkpt_le
  have hne : sp.nCkpt ≠ s.nCkpt + 1 := by omega
  exact ⟨hle.trans (Nat.le_succ _), fun heq => absurd heq hne, fun heq => absurd heq hne,
    fun _ => rfl⟩

/-- **The transaction is rolled back.** -/
theorem undo (h : s.Placed) : (sqlite3WalUndo s).Placed := by
  refine ⟨?_, Nat.zero_le _, fun hne => absurd rfl hne, le_rfl, h.live_aSalt, h.live_aSalt,
    fun sp hsp => absurd hsp List.not_mem_nil, List.Pairwise.nil⟩
  show (s.frames.take s.live.mxFrame).length = s.live.mxFrame
  rw [List.length_take, h.length]
  exact min_eq_left h.live_le

/-- **A savepoint is opened.** -/
theorem opened (h : s.Placed) : (sqlite3WalSavepoint s).Placed := by
  have hmark : s.Mark ⟨s.hdr.mxFrame, s.hdr.aFrameCksum, s.nCkpt⟩ :=
    ⟨le_rfl, fun _ => h.live_le, fun _ => le_rfl, fun hne => absurd rfl hne⟩
  refine ⟨h.length, h.reCksum_le, h.reCksum_live, h.live_le, h.aSalt, h.live_aSalt, ?_, ?_⟩
  · intro sp hsp
    have hsp' : s.Mark sp := by
      rcases List.mem_append.mp hsp with hold | hnew
      · exact h.savepoint sp hold
      · rw [List.mem_singleton.mp hnew]
        exact hmark
    exact ⟨hsp'.nCkpt_le, hsp'.live_le, hsp'.le_mxFrame, hsp'.restarted⟩
  · show List.Pairwise _ (s.savepoints ++ [_])
    rw [List.pairwise_append]
    refine ⟨h.ordered, List.pairwise_singleton _ _, ?_⟩
    intro sp hsp sp' hsp'
    rw [List.mem_singleton.mp hsp']
    exact ⟨(h.savepoint sp hsp).nCkpt_le, (h.savepoint sp hsp).le_mxFrame⟩

/-- Savepoints are released. -/
theorem release (h : s.Placed) (k : ℕ) :
    WalState.Placed { s with savepoints := s.savepoints.take k } := by
  refine ⟨h.length, h.reCksum_le, h.reCksum_live, h.live_le, h.aSalt, h.live_aSalt, ?_,
    h.ordered.sublist (List.take_sublist k _)⟩
  intro sp hsp
  have hsp' := h.savepoint sp (List.mem_of_mem_take hsp)
  exact ⟨hsp'.nCkpt_le, hsp'.live_le, hsp'.le_mxFrame, hsp'.restarted⟩

end WalState.Placed

/-- A savepoint as it is gone back to. One from before a restart is one of the start of the log. -/
def WalState.current (s : WalState) (sp : WalSavepoint) : WalSavepoint :=
  if sp.nCkpt ≠ s.nCkpt then { sp with mxFrame := 0, nCkpt := s.nCkpt } else sp

theorem WalState.Mark.current {sp : WalSavepoint} (h : s.Mark sp) :
    (s.current sp).nCkpt = s.nCkpt ∧ s.live.mxFrame ≤ (s.current sp).mxFrame ∧
      (s.current sp).mxFrame ≤ s.hdr.mxFrame := by
  rw [WalState.current]
  split
  · rename_i hne
    exact ⟨rfl, (h.restarted hne).le, Nat.zero_le _⟩
  · rename_i heq
    have heq' := not_not.mp heq
    exact ⟨heq', h.live_le heq', h.le_mxFrame heq'⟩

/-- The savepoints before one are before it as it is gone back to. -/
theorem WalState.Placed.before_current (h : s.Placed) {k : ℕ} {sp : WalSavepoint}
    (hk : s.savepoints[k]? = some sp) {sp₀ : WalSavepoint} (hmem : sp₀ ∈ s.savepoints.take k) :
    sp₀.nCkpt ≤ s.nCkpt ∧ (sp₀.nCkpt = s.nCkpt → sp₀.mxFrame ≤ (s.current sp).mxFrame) := by
  obtain ⟨hlt, hget⟩ := List.getElem?_eq_some_iff.mp hk
  have hmark := h.savepoint sp (hget ▸ List.getElem_mem hlt)
  have hordered := h.ordered
  rw [← List.take_append_drop k s.savepoints, List.pairwise_append] at hordered
  have hdrop : sp ∈ s.savepoints.drop k := by
    rw [List.drop_eq_getElem_cons hlt, hget]
    exact List.mem_cons_self
  obtain ⟨hle, hmx⟩ := hordered.2.2 sp₀ hmem sp hdrop
  have hle' := hmark.nCkpt_le
  refine ⟨hle.trans hle', ?_⟩
  intro heq
  have heq' : sp.nCkpt = s.nCkpt := by omega
  rw [WalState.current, if_neg (not_not.mpr heq')]
  exact hmx (heq.trans heq'.symm)

/-- **Going back to a savepoint.** -/
theorem sqlite3WalSavepointUndo_eq {k : ℕ} {sp : WalSavepoint} (hk : s.savepoints[k]? = some sp) :
    sqlite3WalSavepointUndo s k =
      let sp := s.current sp
      let s := { s with savepoints := s.savepoints.take k ++ [sp] }
      if sp.mxFrame < s.hdr.mxFrame then
        { s with
          hdr := { s.hdr with mxFrame := sp.mxFrame, aFrameCksum := sp.aFrameCksum }
          iReCksum := if s.iReCksum > sp.mxFrame then 0 else s.iReCksum
          frames := s.frames.take sp.mxFrame }
      else s := by
  rw [sqlite3WalSavepointUndo, hk]
  rfl

/-- **The log goes back to a savepoint.** -/
theorem WalState.Placed.back (h : s.Placed) (k : ℕ) : (sqlite3WalSavepointUndo s k).Placed := by
  cases hk : s.savepoints[k]? with
  | none =>
    rw [sqlite3WalSavepointUndo, hk]
    exact h
  | some sp =>
    obtain ⟨hlt, hget⟩ := List.getElem?_eq_some_iff.mp hk
    obtain ⟨hnCkpt, hlive, hle⟩ := (h.savepoint sp (hget ▸ List.getElem_mem hlt)).current
    have hbefore : ∀ sp₀ ∈ s.savepoints.take k, sp₀.nCkpt ≤ s.nCkpt ∧
        (sp₀.nCkpt = s.nCkpt → sp₀.mxFrame ≤ (s.current sp).mxFrame) :=
      fun sp₀ hmem => h.before_current hk hmem
    rw [sqlite3WalSavepointUndo_eq hk]
    obtain ⟨sp', hsp'⟩ : ∃ sp', sp' = s.current sp := ⟨_, rfl⟩
    rw [← hsp'] at hnCkpt hlive hle hbefore ⊢
    have hordered : (s.savepoints.take k ++ [sp']).Pairwise fun sp sp' =>
        sp.nCkpt ≤ sp'.nCkpt ∧ (sp.nCkpt = sp'.nCkpt → sp.mxFrame ≤ sp'.mxFrame) := by
      rw [List.pairwise_append]
      refine ⟨h.ordered.sublist (List.take_sublist k _), List.pairwise_singleton _ _, ?_⟩
      intro sp₀ hmem sp₁ hmem₁
      rw [List.mem_singleton.mp hmem₁, hnCkpt]
      exact hbefore sp₀ hmem
    simp only
    split
    · refine ⟨?_, ?_, ?_, hlive, h.aSalt, h.live_aSalt, ?_, hordered⟩
      · show (s.frames.take sp'.mxFrame).length = sp'.mxFrame
        rw [List.length_take, h.length]
        exact min_eq_left hle
      · show (if s.iReCksum > sp'.mxFrame then 0 else s.iReCksum) ≤ sp'.mxFrame
        split <;> omega
      · show (if s.iReCksum > sp'.mxFrame then 0 else s.iReCksum) ≠ 0 →
          s.live.mxFrame < if s.iReCksum > sp'.mxFrame then 0 else s.iReCksum
        split
        · exact fun hne => absurd rfl hne
        · exact h.reCksum_live
      · intro sp₀ hmem
        rcases List.mem_append.mp hmem with hold | hnew
        · have hmark₀ := h.savepoint sp₀ (List.mem_of_mem_take hold)
          exact ⟨hmark₀.nCkpt_le, hmark₀.live_le, (hbefore sp₀ hold).2, hmark₀.restarted⟩
        · rw [List.mem_singleton.mp hnew]
          exact ⟨hnCkpt.le, fun _ => hlive, fun _ => le_rfl, fun hne => absurd hnCkpt hne⟩
    · refine ⟨h.length, h.reCksum_le, h.reCksum_live, h.live_le, h.aSalt, h.live_aSalt, ?_,
        hordered⟩
      intro sp₀ hmem
      rcases List.mem_append.mp hmem with hold | hnew
      · have hmark₀ := h.savepoint sp₀ (List.mem_of_mem_take hold)
        exact ⟨hmark₀.nCkpt_le, hmark₀.live_le, hmark₀.le_mxFrame, hmark₀.restarted⟩
      · rw [List.mem_singleton.mp hnew]
        exact ⟨hnCkpt.le, fun _ => hlive, fun _ => hle, fun hne => absurd hnCkpt hne⟩

/-! ### Writing frames -/

variable (P) in
/-- The pages that `walFrames` has appended, and the state behind its loop. -/
def walWritten (s : WalState) (pList : List PgHdr) (nTruncate : ℕ) (isCommit : Bool)
    (randomSalt : Bytes) : List PgHdr × WalState :=
  let t := walBegin P s randomSalt
  walWritePages P (if s.hdr = s.live then 0 else s.live.mxFrame + 1) nTruncate isCommit
    t.hdr.mxFrame pList t

/-- Frames that do not complete a transaction. -/
theorem after_spill {pList appended : List PgHdr} {nTruncate : ℕ} {sync : Bool}
    {randomSalt : Bytes} {u : WalState}
    (hwritten : walWritten P s pList nTruncate false randomSalt = (appended, u)) :
    s.after P (.frames pList nTruncate false sync randomSalt) = { u with
      frames := u.frames ++ appended.map PgHdr.frame
      hdr := { u.hdr with mxFrame := u.hdr.mxFrame + appended.length } } := by
  have hnil : repeatedFrames appended 0 = [] := by
    rw [repeatedFrames]
    split <;> rfl
  rw [walWritten] at hwritten
  simp [WalState.after, walFrames, hwritten, hnil]

/-- Frames that complete a transaction, when the checksums cannot be made up for. -/
theorem after_failed {pList appended : List PgHdr} {nTruncate : ℕ} {sync : Bool}
    {randomSalt : Bytes} {u v : WalState} {rc : ResultCode}
    (hwritten : walWritten P s pList nTruncate true randomSalt = (appended, u))
    (hrewrite : (if u.iReCksum ≠ 0 then
      walRewriteChecksums P u (u.hdr.mxFrame + appended.length) else (.ok, u)) = (rc, v))
    (hrc : rc ≠ .ok) :
    s.after P (.frames pList nTruncate true sync randomSalt) = v := by
  rw [walWritten] at hwritten
  simp only [WalState.after, walFrames, hwritten, true_and, hrewrite, hrc, if_false, false_and]

/-- Frames that complete a transaction. -/
theorem after_commit {pList appended : List PgHdr} {nTruncate : ℕ} {sync : Bool}
    {randomSalt : Bytes} {u v x : WalState} {nExtra : ℕ}
    (hwritten : walWritten P s pList nTruncate true randomSalt = (appended, u))
    (hrewrite : (if u.iReCksum ≠ 0 then
      walRewriteChecksums P u (u.hdr.mxFrame + appended.length) else (.ok, u)) = (.ok, v))
    (hfinish : walFinish P v appended nTruncate (u.hdr.mxFrame + appended.length) sync =
      (nExtra, x)) :
    s.after P (.frames pList nTruncate true sync randomSalt) = { x with
      frames := x.frames ++ appended.map PgHdr.frame ++ repeatedFrames appended nExtra
      hdr := { x.hdr with
        iChange := x.hdr.iChange + 1
        nPage := nTruncate
        mxFrame := u.hdr.mxFrame + appended.length + nExtra }
      live := { x.hdr with
        iChange := x.hdr.iChange + 1
        nPage := nTruncate
        mxFrame := u.hdr.mxFrame + appended.length + nExtra }
      savepoints := [] } := by
  rw [walWritten] at hwritten
  simp only [WalState.after, walFrames, hwritten, true_and, hrewrite, if_true, hfinish, and_true]

/-- The first frame that may be overwritten is behind the committed ones. -/
theorem live_lt_iFirst (s : WalState)
    (h : (if s.hdr = s.live then 0 else s.live.mxFrame + 1) ≠ 0) :
    s.live.mxFrame < if s.hdr = s.live then 0 else s.live.mxFrame + 1 := by
  split
  · rename_i heq
    rw [if_pos heq] at h
    exact absurd rfl h
  · exact Nat.lt_succ_self _

/-- The loop of `walFrames`, from the state before. -/
theorem walWritten_positions (h : s.Placed) (pList : List PgHdr) (nTruncate : ℕ) (isCommit : Bool)
    {randomSalt : Bytes} (hrandom : randomSalt.length = 8) :
    let r := walWritten P s pList nTruncate isCommit randomSalt
    (walBegin P s randomSalt).Same r.2 ∧ r.2.config = s.config ∧ r.2.live = s.live ∧
      r.2.nCkpt = s.nCkpt ∧ r.2.savepoints = s.savepoints ∧ r.2.hdr.mxFrame = s.hdr.mxFrame ∧
      r.2.frames.length = s.hdr.mxFrame ∧ r.2.hdr.aSalt.length = 8 ∧
      r.2.iReCksum ≤ s.hdr.mxFrame ∧ (r.2.iReCksum ≠ 0 → s.live.mxFrame < r.2.iReCksum) ∧
      (∀ i, r.2.iReCksum = 0 ∨ i < r.2.iReCksum → s.iReCksum = 0 ∨ i < s.iReCksum) ∧
      r.1 = appendedPages s (if s.hdr = s.live then 0 else s.live.mxFrame + 1) isCommit pList := by
  obtain ⟨hconfig, -, hlive, hnCkpt, hsp, hmx, hframes, hre, hsalt⟩ :=
    walBegin_positions (P := P) s h.aSalt hrandom
  obtain ⟨hsame, happended, hre', hsum⟩ := walWritePages_positions (P := P)
    (walBegin P s randomSalt) (if s.hdr = s.live then 0 else s.live.mxFrame + 1) nTruncate
    (walBegin P s randomSalt).hdr.mxFrame isCommit pList
  refine ⟨hsame, hsame.config.trans hconfig, hsame.live.trans hlive, hsame.nCkpt.trans hnCkpt,
    hsame.savepoints.trans hsp, hsame.mxFrame.trans hmx, ?_, ?_, ?_, ?_, ?_, ?_⟩
  · rw [← h.length, ← hframes]
    exact hsame.length_frames
  · exact (congrArg List.length hsame.aSalt).trans hsalt
  · rcases hre' with heq | ⟨-, -, hle⟩
    · exact (heq.trans hre).le.trans h.reCksum_le
    · exact hle.trans hmx.le
  · intro hne
    rcases hre' with heq | ⟨hfirst, hge, -⟩
    · rw [show (walWritten P s pList nTruncate isCommit randomSalt).2.iReCksum = _ from
        heq.trans hre] at hne ⊢
      exact h.reCksum_live hne
    · exact (live_lt_iFirst s hfirst).trans_le hge
  · rw [← hre]
    exact hsum
  · rw [← appendedPages_congr hmx (congrArg _ hframes)]
    exact happended

/-- **Frames are written.** -/
theorem WalState.Placed.frames (h : s.Placed) (pList : List PgHdr) (nTruncate : ℕ)
    (isCommit sync : Bool) {randomSalt : Bytes} (hrandom : randomSalt.length = 8) :
    (s.after P (.frames pList nTruncate isCommit sync randomSalt)).Placed := by
  have hpos := walWritten_positions (P := P) h pList nTruncate isCommit hrandom
  obtain ⟨r, hr⟩ : ∃ r, walWritten P s pList nTruncate isCommit randomSalt = r := ⟨_, rfl⟩
  rw [hr] at hpos
  obtain ⟨appended, u⟩ := r
  obtain ⟨-, -, hlive, hnCkpt, hsp, hmx, hlen, hsalt, hle, hre, -, -⟩ := hpos
  have hlen' : (u.frames ++ appended.map PgHdr.frame).length =
      u.hdr.mxFrame + appended.length := by
    rw [List.length_append, List.length_map, hlen, hmx]
  have hgrow : s.hdr.mxFrame ≤ u.hdr.mxFrame + appended.length :=
    hmx.symm.le.trans (Nat.le_add_right _ _)
  cases isCommit with
  | false =>
    rw [after_spill hr]
    exact h.grow hlive hnCkpt hsp hlen' hgrow (hle.trans hgrow) hre hsalt
  | true =>
    obtain ⟨rc, v, hv, hsame, hframes, hre₁⟩ : ∃ rc v, (if u.iReCksum ≠ 0 then
        walRewriteChecksums P u (u.hdr.mxFrame + appended.length) else (.ok, u)) = (rc, v) ∧
        u.Same v ∧ v.frames = u.frames ∧ v.iReCksum = 0 := by
      by_cases hzero : u.iReCksum = 0
      · exact ⟨.ok, u, if_neg (not_not.mpr hzero), WalState.Same.refl u, rfl, hzero⟩
      · obtain ⟨hsame, hframes, hre₁⟩ :=
          walRewriteChecksums_same (P := P) u (u.hdr.mxFrame + appended.length)
        exact ⟨_, _, if_pos hzero, hsame, hframes, hre₁⟩
    by_cases hrc : rc = .ok
    · obtain ⟨nExtra, x, hx⟩ : ∃ nExtra x, walFinish P v appended nTruncate
        (u.hdr.mxFrame + appended.length) sync = (nExtra, x) := ⟨_, _, rfl⟩
      obtain ⟨hsame', hframes', hre', hextra⟩ := walFinish_same (P := P) v appended nTruncate
        (u.hdr.mxFrame + appended.length) sync
      rw [hx] at hsame' hframes' hre' hextra
      rw [hrc] at hv
      rw [after_commit hr hv hx]
      refine committed rfl ?_ (hre'.trans hre₁) ?_ rfl
      · show (x.frames ++ appended.map PgHdr.frame ++ repeatedFrames appended nExtra).length = _
        rw [hframes', hframes, List.length_append, hlen', hextra]
      · show x.hdr.aSalt.length = 8
        rw [hsame'.aSalt, hsame.aSalt]
        exact hsalt
    · -- nothing gets into the wal-index, and the checksums are not made up for again
      rw [after_failed hr hv hrc]
      refine h.grow (hsame.live.trans hlive) (hsame.nCkpt.trans hnCkpt)
        (hsame.savepoints.trans hsp) ?_ ?_ ?_ (fun hne => absurd hre₁ hne) ?_
      · rw [hframes, hlen, hsame.mxFrame, hmx]
      · rw [hsame.mxFrame, hmx]
      · rw [hre₁]
        exact Nat.zero_le _
      · rw [hsame.aSalt]
        exact hsalt

/-- **One operation of the writer.** -/
theorem WalState.Placed.step {t : WalState} {a : WalAction} (h : s.Placed)
    (hstep : WalStep P s a t) : t.Placed := by
  obtain ⟨hallowed, rfl⟩ := hstep
  cases a with
  | frames pList nTruncate isCommit sync randomSalt =>
    exact h.frames pList nTruncate isCommit sync hallowed.2.2.1
  | restart salt1 truncate => exact h.restart hallowed salt1 truncate
  | undo => exact h.undo
  | savepoint => exact h.opened
  | savepointUndo k => exact h.back k
  | release k => exact h.release k

/-- A log without frames, in whatever file. -/
structure WalState.Fresh (s : WalState) : Prop where
  mxFrame : s.hdr.mxFrame = 0
  live : s.live.mxFrame = 0
  frames : s.frames = []
  iReCksum : s.iReCksum = 0
  savepoints : s.savepoints = []
  aSalt : s.hdr.aSalt.length = 8
  live_aSalt : s.live.aSalt.length = 8

theorem WalState.Fresh.placed (h : s.Fresh) : s.Placed := by
  refine ⟨?_, ?_, fun hne => absurd h.iReCksum hne, ?_, h.aSalt, h.live_aSalt, ?_, ?_⟩
  · rw [h.frames, h.mxFrame]
    rfl
  · rw [h.iReCksum]
    exact Nat.zero_le _
  · rw [h.live]
    exact Nat.zero_le _
  · rw [h.savepoints]
    exact fun sp hsp => absurd hsp List.not_mem_nil
  · rw [h.savepoints]
    exact List.Pairwise.nil

/-! ### A log -/

/-- Pages of 512 bytes on a device with sectors of 4096 bytes that may be torn, with the shim as
top VFS. -/
def walOn4096 : WalConfig where
  szPage := 512
  sectorSize := 4096
  padToSectorBoundary := true
  vfsOnTop := true
  bigEndian := false
  mxWalSize := -1
  szPage_valid := pageSize512_valid
  sectorSize_valid := by decide

/-- The log of a database with a codec, before the first frame. -/
def emptyWal (codec : Codec Cipher) : WalState where
  config := walOn4096
  codec := codec
  shim := ⟨[], rc4Env, 0, []⟩
  hdr := ⟨0, false, 0, 0, (0, 0), zeros 8⟩
  live := ⟨0, false, 0, 0, (0, 0), zeros 8⟩
  iReCksum := 0
  nCkpt := 0
  truncateOnCommit := false
  savepoints := []
  frames := []

theorem emptyWal_fresh (codec : Codec Cipher) : (emptyWal codec).Fresh :=
  ⟨rfl, rfl, rfl, rfl, rfl, rfl, rfl⟩

/-- The second page, with zeros only. -/
def zeroPage : PgHdr := ⟨2, zeros 512⟩

/-- The page may always be written to a log of that page size. -/
theorem zeroPage_allowed {s : WalState} (hsize : s.config.szPage = 512) {nTruncate : ℕ}
    (hlt : nTruncate < 2 ^ 32) {isCommit : Bool} (hcommit : isCommit = true ↔ nTruncate ≠ 0)
    (sync : Bool) :
    (WalAction.frames [zeroPage] nTruncate isCommit sync (zeros 8)).Allowed s := by
  refine ⟨List.cons_ne_nil _ _, by simp, rfl, hlt, hcommit, ?_⟩
  intro p hp
  rw [List.mem_singleton.mp hp]
  exact ⟨by decide, by decide, databasePage_zeros le_rfl, (length_zeros 512).trans hsize.symm⟩

end MultipleCiphers
