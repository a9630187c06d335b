import MultipleCiphers.Wal.Writer

/-!
# The log in the standard mode

Between two operations of the writer the log holds the frames that the wal-index knows. They are
encrypted under their own numbers. A read of a page is decrypted; the number of the page is in the
header of its frame. A read of a whole frame delivers the bytes whose checksum is in its header. It
does so for all frames, unless the running transaction has overwritten one: then the frames from
this one on are without a checksum until the transaction is committed.

What has to be kept besides is what the log can go back to. A rollback returns to the header in the
wal-index, and a savepoint to the number of frames and the checksum that it has noted.

## Main definitions

* `WalState.Logged`, `WalState.Marks`, `WalState.Inv` — the log between two operations.
* `WalState.RoundTrips` — every frame is read back.

## Main results

* `WalState.Inv.frames` — writing frames preserves the invariant.
* `wal_roundTrip` — in every run of the writer every frame is read back.
-/

namespace MultipleCiphers

open Bytes

section RoundTrip

variable {P : Primitives} {cipher : Cipher} {s : WalState}

/-! ### The log between two operations -/

variable (P cipher) in
/-- The frames of the log, and the header of the wal-index that belongs to them. -/
structure WalState.Logged (s : WalState) : Prop where
  held : Held P cipher s.codec.readReservedBytes s.config s.shim.real s.frames
  valid : ∀ i, 0 < i → i ≤ s.frames.length → s.iReCksum = 0 ∨ i < s.iReCksum →
    CksumValid s.config s.hdr.bigEndCksum s.shim.real i
  cksum : s.hdr.mxFrame ≠ 0 → s.iReCksum = 0 →
    s.hdr.aFrameCksum = storedCksum s.config s.shim.real s.hdr.mxFrame

/-- The checksums that the log can go back to: that of what was committed, and those that the
savepoints have noted. -/
structure WalState.Marks (s : WalState) : Prop where
  live_cksum : s.live.mxFrame ≠ 0 → s.live.bigEndCksum = s.hdr.bigEndCksum ∧
    s.live.aFrameCksum = storedCksum s.config s.shim.real s.live.mxFrame
  savepoint : ∀ sp ∈ s.savepoints, sp.nCkpt = s.nCkpt → sp.mxFrame ≠ 0 →
    s.iReCksum = 0 ∨ sp.mxFrame < s.iReCksum →
      sp.aFrameCksum = storedCksum s.config s.shim.real sp.mxFrame

variable (P cipher) in
/-- The log between two operations. -/
structure WalState.Inv (s : WalState) : Prop where
  standard : s.Standard cipher
  placed : s.Placed
  logged : s.Logged P cipher
  marks : s.Marks

/-- What can be gone back to is kept when frames are written behind it. -/
theorem WalState.Marks.kept {t : WalState} (h : s.Marks) (hplaced : s.Placed)
    (hconfig : t.config = s.config) (hlive : t.live = s.live) (hnCkpt : t.nCkpt = s.nCkpt)
    (hsp : t.savepoints = s.savepoints)
    (hbig : s.hdr.mxFrame ≠ 0 → t.hdr.bigEndCksum = s.hdr.bigEndCksum)
    (hsum : ∀ i, t.iReCksum = 0 ∨ i < t.iReCksum → s.iReCksum = 0 ∨ i < s.iReCksum)
    (hstored : ∀ i, i ≠ 0 → i ≤ s.hdr.mxFrame →
      storedCksum s.config t.shim.real i = storedCksum s.config s.shim.real i) : t.Marks := by
  have hle := hplaced.live_le
  refine ⟨?_, ?_⟩
  · rw [hlive, hconfig]
    intro hne
    rw [hbig (by omega), hstored _ hne hle]
    exact h.live_cksum hne
  · rw [hsp, hnCkpt, hconfig]
    intro sp hmem heq hne hi
    rw [hstored _ hne ((hplaced.savepoint sp hmem).le_mxFrame heq)]
    exact h.savepoint sp hmem heq hne (hsum _ hi)

/-- A log with frames can be written to. -/
theorem WalState.Logged.writing (h : s.Logged P cipher) (hplaced : s.Placed)
    (hne : s.hdr.mxFrame ≠ 0) : s.Writing P cipher s.frames := by
  refine ⟨h.held.inside (hplaced.length ▸ hne), h.held, h.valid, ?_, ?_, hplaced.aSalt⟩
  · rw [hplaced.length]
    exact h.cksum hne
  · rw [hplaced.length]
    exact hplaced.reCksum_le

/-! ### Writing frames -/

/-- **The header of the log is written**, if there are no frames. -/
theorem walBegin_writing (h : s.Inv P cipher) {randomSalt : Bytes} (hsalt : randomSalt.length = 8) :
    let t := walBegin P s randomSalt
    t.Standard cipher ∧ t.Writing P cipher t.frames ∧
      (s.hdr.mxFrame ≠ 0 → t = s) := by
  by_cases hzero : s.hdr.mxFrame = 0
  · obtain ⟨aSalt, haSalt⟩ : ∃ b, b = if s.nCkpt = 0 then randomSalt else s.hdr.aSalt := ⟨_, rfl⟩
    have hlenSalt : aSalt.length = 8 := by
      rw [haSalt]
      split
      · exact hsalt
      · exact h.placed.aSalt
    obtain ⟨aWalHdr, haWalHdr⟩ : ∃ b, b = walHeader s aSalt := ⟨_, rfl⟩
    have hlenHdr : aWalHdr.length = 24 := by
      rw [haWalHdr]
      simp [walHeader, hlenSalt]
    obtain ⟨aCksum, haCksum⟩ : ∃ c, c = walChecksumBytes s.config.bigEndian aWalHdr (0, 0) :=
      ⟨_, rfl⟩
    have hlt : aCksum.1 < 2 ^ 32 ∧ aCksum.2 < 2 ^ 32 := by
      rw [haCksum]
      exact walChecksumBytes_lt _ _ ⟨by decide, by decide⟩
    obtain ⟨t₁, ht₁⟩ : ∃ t, t = { s with
      hdr := { s.hdr with
        aSalt := aSalt
        bigEndCksum := s.config.bigEndian
        aFrameCksum := aCksum }
      truncateOnCommit := true } := ⟨_, rfl⟩
    have hstd₁ : t₁.Standard cipher := by
      rw [ht₁]
      exact ⟨h.standard.codec, h.standard.walLegacy, h.standard.vfsOnTop⟩
    obtain ⟨shim, hwrite, hreal⟩ :=
      hstd₁.write (P := P) (aWalHdr ++ put4byte aCksum.1 ++ put4byte aCksum.2) 0
    have hlen : (aWalHdr ++ put4byte aCksum.1).length = 28 := by
      rw [List.length_append, hlenHdr, length_put4byte]
    have hstored : storedCksum s.config shim.real 0 = aCksum := by
      have h24 := slice_writeAt_part (d := aWalHdr ++ put4byte aCksum.1 ++ put4byte aCksum.2)
        t₁.shim.real 0 (show 24 + 4 ≤ _ by simp [hlenHdr])
      have h28 := slice_writeAt_part (d := aWalHdr ++ put4byte aCksum.1 ++ put4byte aCksum.2)
        t₁.shim.real 0 (show 28 + 4 ≤ _ by simp [hlenHdr])
      rw [slice_append hlenHdr (length_put4byte _), Nat.zero_add, ← hreal] at h24
      rw [slice_append_behind hlen (length_put4byte _), Nat.zero_add, ← hreal] at h28
      rw [storedCksum]
      simp only [if_true, h24, h28]
      rw [get4byte_put4byte hlt.1, get4byte_put4byte hlt.2]
    have hnil : s.frames = [] := List.length_eq_zero_iff.mp (h.placed.length.trans hzero)
    have hre := h.placed.reCksum_le
    have hinside : s.config.walFrameOffset 1 ≤ shim.real.length := by
      rw [hreal, length_writeAt, List.length_append, hlen, length_put4byte]
      exact (show s.config.walFrameOffset 1 = 32 by simp [WalConfig.walFrameOffset, walHdrSize]) ▸
        le_max_right _ _
    intro t
    have ht : t = t₁.withShim shim := by
      rw [← hwrite, ht₁, haCksum, haWalHdr, haSalt]
      show walBegin P s randomSalt = _
      rw [walBegin, if_pos hzero]
    clear_value t
    subst ht
    subst ht₁
    refine ⟨hstd₁.withShim shim, ⟨?_, ?_, ?_, ?_, ?_, hlenSalt⟩, fun hne => absurd hzero hne⟩
    · show s.config.walFrameOffset (s.frames.length + 1) ≤ shim.real.length
      rw [hnil]
      exact hinside
    · show Held _ _ _ _ _ s.frames
      rw [hnil]
      exact Held.nil
    · show ∀ i, 0 < i → i ≤ s.frames.length → _
      rw [hnil]
      exact fun i hpos hi => absurd (hpos.trans_le hi) (lt_irrefl 0)
    · show _ → aCksum = storedCksum s.config shim.real s.frames.length
      rw [hnil]
      exact fun _ => hstored.symm
    · show s.iReCksum ≤ s.frames.length
      rw [h.placed.length]
      exact hre
  · have ht : walBegin P s randomSalt = s := by rw [walBegin, if_neg hzero]
    rw [ht]
    exact ⟨h.standard, h.logged.writing h.placed hzero, fun _ => rfl⟩

/-- **The pages of a transaction are written.** -/
theorem walWritten_writing (h : s.Inv P cipher) {pList : List PgHdr} {randomSalt : Bytes}
    (hpages : ∀ p ∈ pList, p.Valid s.config) (hsalt : randomSalt.length = 8) (nTruncate : ℕ)
    (isCommit : Bool) :
    let r := walWritten P s pList nTruncate isCommit randomSalt
    r.2.Standard cipher ∧ r.2.Writing P cipher (r.2.frames ++ r.1.map PgHdr.frame) ∧
      r.2.Marks := by
  obtain ⟨hstd, hwriting, hsame⟩ := walBegin_writing h hsalt
  obtain ⟨hconfig, -, -, -, -, hmx, hframes, -, -⟩ :=
    walBegin_positions (P := P) s h.placed.aSalt hsalt
  obtain ⟨hsame', hconfig', hlive, hnCkpt, hsp, -, -, -, -, -, hsum, -⟩ :=
    walWritten_positions (P := P) h.placed pList nTruncate isCommit hsalt
  have hlen : (walBegin P s randomSalt).frames.length = (walBegin P s randomSalt).hdr.mxFrame := by
    rw [hframes, hmx, h.placed.length]
  obtain ⟨hw, hstored⟩ := walWritePages_writing
    (if s.hdr = s.live then 0 else s.live.mxFrame + 1) nTruncate isCommit hwriting hstd
      (by rw [hconfig]; exact hpages) hlen
  refine ⟨hstd.same hsame', hw, ?_⟩
  refine h.marks.kept h.placed hconfig' hlive hnCkpt hsp ?_ hsum ?_
  · intro hne
    rw [hsame'.bigEndCksum, hsame hne]
  · intro i hi hle
    have hne : s.hdr.mxFrame ≠ 0 := by omega
    have hkept := hstored i (hmx.symm ▸ hle)
    rw [hsame hne] at hkept
    rw [walWritten, hsame hne]
    exact hkept

/-- **Frames are written.** -/
theorem WalState.Inv.frames (h : s.Inv P cipher) {pList : List PgHdr} {randomSalt : Bytes}
    {nTruncate : ℕ} {isCommit sync : Bool}
    (hallowed : (WalAction.frames pList nTruncate isCommit sync randomSalt).Allowed s) :
    (s.after P (.frames pList nTruncate isCommit sync randomSalt)).Inv P cipher := by
  have hvalid := hallowed.valid
  have hsalt := hallowed.2.2.1
  have hplaced := h.placed.frames (P := P) pList nTruncate isCommit sync hsalt
  have hwritten := walWritten_writing h hvalid hsalt nTruncate isCommit
  have hpos := walWritten_positions (P := P) h.placed pList nTruncate isCommit hsalt
  obtain ⟨r, hr⟩ : ∃ r, walWritten P s pList nTruncate isCommit randomSalt = r := ⟨_, rfl⟩
  rw [hr] at hwritten hpos
  obtain ⟨appended, u⟩ := r
  obtain ⟨hstd, hw, hmarks⟩ := hwritten
  obtain ⟨-, hconfig, -, -, -, hmx, hlen, -, -, -, -, heq⟩ := hpos
  have happended : ∀ p ∈ appended, p.Valid u.config := by
    intro p hp
    rw [show u.config = s.config from hconfig]
    rw [show appended = _ from heq] at hp
    exact hvalid p (mem_of_mem_appendedPages hp)
  have hlen' : (u.frames ++ appended.map PgHdr.frame).length =
      u.hdr.mxFrame + appended.length := by
    rw [List.length_append, List.length_map, hlen, hmx]
  cases isCommit with
  | false =>
    rw [after_spill hr] at hplaced ⊢
    refine ⟨⟨hstd.codec, hstd.walLegacy, hstd.vfsOnTop⟩, hplaced, ⟨hw.held, hw.valid, ?_⟩,
      ⟨hmarks.live_cksum, hmarks.savepoint⟩⟩
    intro _ hre
    show _ = storedCksum _ _ (u.hdr.mxFrame + appended.length)
    rw [← hlen']
    exact hw.cksum hre
  | true =>
    obtain ⟨v, hv, hw₁, hsame₁, hframes₁⟩ : ∃ v, (if u.iReCksum ≠ 0 then
        walRewriteChecksums P u (u.hdr.mxFrame + appended.length) else (.ok, u)) = (.ok, v) ∧
        v.Writing P cipher (u.frames ++ appended.map PgHdr.frame) ∧ u.Same v ∧
        v.frames = u.frames := by
      by_cases hre : u.iReCksum = 0
      · exact ⟨u, if_neg (not_not.mpr hre), hw, WalState.Same.refl u, rfl⟩
      · obtain ⟨hrc, hw'⟩ := walRewriteChecksums_writing hw hstd hre
        obtain ⟨hsame, hframes, -⟩ :=
          walRewriteChecksums_same (P := P) u (u.hdr.mxFrame + appended.length)
        rw [hlen'] at hrc hw'
        refine ⟨_, ?_, hw', hsame, hframes⟩
        rw [if_pos hre, ← hrc]
    have hstd₁ := hstd.same hsame₁
    have hw₂ := walFinish_writing hw₁ hstd₁ (by rw [hsame₁.config]; exact happended) hlen'
      nTruncate sync
    obtain ⟨hsame₂, hframes₂, -, hextra⟩ := walFinish_same (P := P) v appended nTruncate
      (u.hdr.mxFrame + appended.length) sync
    obtain ⟨x, hx⟩ : ∃ x, walFinish P v appended nTruncate (u.hdr.mxFrame + appended.length)
      sync = x := ⟨_, rfl⟩
    rw [hx] at hw₂ hsame₂ hframes₂ hextra
    obtain ⟨nExtra, x⟩ := x
    have hstd₂ := hstd₁.same hsame₂
    have hlen₂ : (u.frames ++ appended.map PgHdr.frame ++ repeatedFrames appended nExtra).length =
        u.hdr.mxFrame + appended.length + nExtra := by
      rw [List.length_append, hlen', hextra]
    have hcksum : ∀ hre : x.iReCksum = 0, x.hdr.aFrameCksum = storedCksum x.config x.shim.real
        (u.hdr.mxFrame + appended.length + nExtra) := by
      rw [← hlen₂]
      exact hw₂.cksum
    have hre₂ : x.iReCksum = 0 := by
      by_contra hne
      rw [after_commit hr hv hx] at hplaced
      have hlt := hplaced.reCksum_live hne
      exact absurd (hlt.trans_le hplaced.reCksum_le) (lt_irrefl _)
    rw [after_commit hr hv hx] at hplaced ⊢
    rw [show x.frames = u.frames from hframes₂.trans hframes₁] at hplaced ⊢
    exact ⟨⟨hstd₂.codec, hstd₂.walLegacy, hstd₂.vfsOnTop⟩, hplaced,
      ⟨hw₂.held, hw₂.valid, fun _ => hcksum⟩, fun _ => ⟨rfl, hcksum hre₂⟩,
      fun sp hsp => absurd hsp List.not_mem_nil⟩

/-! ### Restarts, rollbacks and savepoints -/

/-- **The log is restarted.** -/
theorem WalState.Inv.restart (h : s.Inv P cipher) (hlive : s.hdr = s.live) (salt1 : ℕ)
    (truncate : Bool) : (walRestartHdr s salt1 truncate).Inv P cipher := by
  refine ⟨⟨h.standard.codec, h.standard.walLegacy, h.standard.vfsOnTop⟩,
    h.placed.restart hlive salt1 truncate, ⟨Held.nil, ?_, fun hne => absurd rfl hne⟩,
    fun hne => absurd rfl hne, ?_⟩
  · exact fun i hpos hi => absurd (hpos.trans_le hi) (lt_irrefl 0)
  · intro sp hmem heq
    have hle := (h.placed.savepoint sp hmem).nCkpt_le
    exact absurd heq (show sp.nCkpt ≠ s.nCkpt + 1 by omega)

/-- **The transaction is rolled back.** -/
theorem WalState.Inv.undo (h : s.Inv P cipher) : (sqlite3WalUndo s).Inv P cipher := by
  have hle := h.placed.live_le
  refine ⟨⟨h.standard.codec, h.standard.walLegacy, h.standard.vfsOnTop⟩, h.placed.undo,
    ⟨h.logged.held.take _, ?_, ?_⟩, fun hne => ⟨rfl, (h.marks.live_cksum hne).2⟩,
    fun sp hsp => absurd hsp List.not_mem_nil⟩
  · intro i hpos hi _
    have hi' : i ≤ s.live.mxFrame := by
      rw [show (sqlite3WalUndo s).frames = s.frames.take s.live.mxFrame from rfl,
        List.length_take] at hi
      exact hi.trans (min_le_left _ _)
    show CksumValid s.config s.live.bigEndCksum s.shim.real i
    rw [(h.marks.live_cksum (by omega)).1]
    refine h.logged.valid i hpos (by rw [h.placed.length]; omega) ?_
    by_cases hre : s.iReCksum = 0
    · exact .inl hre
    · exact .inr (hi'.trans_lt (h.placed.reCksum_live hre))
  · exact fun hne _ => (h.marks.live_cksum hne).2

/-- **A savepoint is opened.** -/
theorem WalState.Inv.savepoint (h : s.Inv P cipher) : (sqlite3WalSavepoint s).Inv P cipher := by
  refine ⟨⟨h.standard.codec, h.standard.walLegacy, h.standard.vfsOnTop⟩, h.placed.opened,
    ⟨h.logged.held, h.logged.valid, h.logged.cksum⟩, h.marks.live_cksum, ?_⟩
  intro sp hsp heq hne hre
  rcases List.mem_append.mp hsp with hold | hnew
  · exact h.marks.savepoint sp hold heq hne hre
  · rw [List.mem_singleton.mp hnew] at hne hre ⊢
    rcases hre with hre | hlt
    · exact h.logged.cksum hne hre
    · exact absurd hlt (not_lt.mpr h.placed.reCksum_le)

/-- Savepoints are released. -/
theorem WalState.Inv.release (h : s.Inv P cipher) (k : ℕ) :
    WalState.Inv P cipher { s with savepoints := s.savepoints.take k } :=
  ⟨⟨h.standard.codec, h.standard.walLegacy, h.standard.vfsOnTop⟩, h.placed.release k,
    ⟨h.logged.held, h.logged.valid, h.logged.cksum⟩, h.marks.live_cksum,
    fun sp hsp => h.marks.savepoint sp (List.mem_of_mem_take hsp)⟩

/-- **The log goes back to a savepoint.** -/
theorem WalState.Inv.savepointUndo (h : s.Inv P cipher) (k : ℕ) :
    (sqlite3WalSavepointUndo s k).Inv P cipher := by
  have hplaced := h.placed.back k
  cases hk : s.savepoints[k]? with
  | none =>
    rw [sqlite3WalSavepointUndo, hk]
    exact h
  | some sp =>
    obtain ⟨hlt, hget⟩ := List.getElem?_eq_some_iff.mp hk
    have hmem := hget ▸ List.getElem_mem hlt
    obtain ⟨hnCkpt, -, hle⟩ := (h.placed.savepoint sp hmem).current
    have hcksum : (s.current sp).mxFrame ≠ 0 → s.iReCksum = 0 ∨
        (s.current sp).mxFrame < s.iReCksum →
        (s.current sp).aFrameCksum = storedCksum s.config s.shim.real (s.current sp).mxFrame := by
      rw [WalState.current]
      split
      · exact fun hne => absurd rfl hne
      · rename_i heq
        exact h.marks.savepoint sp hmem (not_not.mp heq)
    have hbefore : ∀ sp₀ ∈ s.savepoints.take k, sp₀.nCkpt ≤ s.nCkpt ∧
        (sp₀.nCkpt = s.nCkpt → sp₀.mxFrame ≤ (s.current sp).mxFrame) :=
      fun sp₀ hmem₀ => h.placed.before_current hk hmem₀
    rw [sqlite3WalSavepointUndo_eq hk] at hplaced ⊢
    obtain ⟨sp', hsp'⟩ : ∃ sp', sp' = s.current sp := ⟨_, rfl⟩
    simp only [← hsp'] at hnCkpt hle hcksum hbefore hplaced ⊢
    -- a frame up to the savepoint has a checksum afterwards only if it had one before
    have hsum : ∀ i, i ≤ sp'.mxFrame →
        ((if s.iReCksum > sp'.mxFrame then 0 else s.iReCksum) = 0 ∨
          i < if s.iReCksum > sp'.mxFrame then 0 else s.iReCksum) →
        s.iReCksum = 0 ∨ i < s.iReCksum := by
      intro i hi hre
      split at hre <;> omega
    split at hplaced
    · rename_i hback
      rw [if_pos hback]
      refine ⟨⟨h.standard.codec, h.standard.walLegacy, h.standard.vfsOnTop⟩, hplaced,
        ⟨h.logged.held.take _, ?_, ?_⟩, h.marks.live_cksum, ?_⟩
      · intro i hpos hi hre
        simp only [List.length_take] at hi
        exact h.logged.valid i hpos (by omega) (hsum i (by omega) hre)
      · exact fun hne hre => hcksum hne (hsum _ le_rfl (.inl hre))
      · intro sp₀ hmem₀ heq hne hre
        rcases List.mem_append.mp hmem₀ with hold | hnew
        · exact h.marks.savepoint sp₀ (List.mem_of_mem_take hold) heq hne
            (hsum _ ((hbefore sp₀ hold).2 heq) hre)
        · rw [List.mem_singleton.mp hnew] at hne hre ⊢
          exact hcksum hne (hsum _ le_rfl hre)
    · rename_i hback
      rw [if_neg hback]
      refine ⟨⟨h.standard.codec, h.standard.walLegacy, h.standard.vfsOnTop⟩, hplaced,
        ⟨h.logged.held, h.logged.valid, h.logged.cksum⟩, h.marks.live_cksum, ?_⟩
      intro sp₀ hmem₀ heq hne hre
      rcases List.mem_append.mp hmem₀ with hold | hnew
      · exact h.marks.savepoint sp₀ (List.mem_of_mem_take hold) heq hne hre
      · rw [List.mem_singleton.mp hnew] at hne hre ⊢
        exact hcksum hne hre

/-! ### Runs -/

/-- **One operation of the writer.** -/
theorem WalState.Inv.step {t : WalState} {a : WalAction} (h : s.Inv P cipher)
    (hstep : WalStep P s a t) : t.Inv P cipher := by
  obtain ⟨hallowed, rfl⟩ := hstep
  cases a with
  | frames pList nTruncate isCommit sync randomSalt => exact h.frames hallowed
  | restart salt1 truncate => exact h.restart hallowed salt1 truncate
  | undo => exact h.undo
  | savepoint => exact h.savepoint
  | savepointUndo k => exact h.savepointUndo k
  | release k => exact h.release k

theorem WalState.Fresh.inv (h : s.Fresh) (hstd : s.Standard cipher) : s.Inv P cipher := by
  refine ⟨hstd, h.placed, ⟨?_, ?_, fun hne => absurd h.mxFrame hne⟩,
    fun hne => absurd h.live hne, ?_⟩
  · rw [h.frames]
    exact Held.nil
  · rw [h.frames]
    exact fun i hpos hi => absurd (hpos.trans_le hi) (lt_irrefl 0)
  · rw [h.savepoints]
    exact fun sp hsp => absurd hsp List.not_mem_nil

/-! ### Reading back -/

variable (P cipher) in
/-- Frame `iFrame` is read back as `f`, the number and the content of its page. Its checksum, if it
has one, is that of the whole frame as it is read. -/
structure WalState.ReadsFrame (s : WalState) (iFrame : ℕ) (f : ℕ × Bytes) : Prop where
  image : Encrypts P cipher s.codec.readReservedBytes f.1 f.2
    (slice s.shim.real (s.config.walFrameOffset iFrame + walFrameHeaderSize) s.config.szPage)
  page_ok : (s.readPage P iFrame).1 = .ok
  page : SameContent (cipher.nReserved s.codec.readReservedBytes) (s.readPage P iFrame).2.1 f.2
  frame_ok : (s.readFrame P iFrame).1 = .ok
  frame : (s.readFrame P iFrame).2.1 =
    slice s.shim.real (s.config.walFrameOffset iFrame) s.config.szFrame
  number : get4byte (slice (s.readFrame P iFrame).2.1 0 4) = f.1
  cksum : s.iReCksum = 0 ∨ iFrame < s.iReCksum →
    let aFrame := (s.readFrame P iFrame).2.1
    (get4byte (slice aFrame 16 4), get4byte (slice aFrame 20 4)) =
      frameCksum s.config s.hdr.bigEndCksum aFrame
        (storedCksum s.config s.shim.real (iFrame - 1))

variable (P cipher) in
/-- Every frame of the log is read back. -/
def WalState.RoundTrips (s : WalState) : Prop :=
  ∀ k f, s.frames[k]? = some f → s.ReadsFrame P cipher (k + 1) f

/-- **Frames of a log that keeps the invariant are read back.** -/
theorem WalState.Inv.roundTrips (h : s.Inv P cipher) : s.RoundTrips P cipher := by
  intro k f hk
  have hf := h.logged.held k f hk
  have hlt := (List.getElem?_eq_some_iff.mp hk).1
  obtain ⟨hrc, hpage⟩ := hf.readPage h.standard.codec.readsWith
  obtain ⟨shim, hread, -⟩ := h.standard.readFrame (P := P) hf.inside
  have hsz := s.config.szFrame_eq
  refine ⟨hf.image, hrc, hpage, ?_, ?_, ?_, ?_⟩
  · rw [hread]
  · rw [hread]
  · rw [hread, slice_slice (by omega), Nat.add_zero]
    exact hf.number
  · intro hre
    have hvalid := h.logged.valid (k + 1) (Nat.succ_pos k) hlt hre
    rw [CksumValid, storedCksum] at hvalid
    simp only [Nat.succ_ne_zero, if_false] at hvalid
    rw [hread]
    simp only
    rw [slice_slice (by omega), slice_slice (by omega)]
    exact hvalid

/-- **The log round trip.** In the standard mode, whatever SQLite's writer does with a log that is
opened empty: every frame is encrypted under its own number, a read of its page delivers what was
last written there, and a read of the whole frame delivers the bytes of its checksum. -/
theorem wal_roundTrip {s t : WalState} {as : List WalAction} (hfresh : s.Fresh)
    (hstd : s.Standard cipher) (hrun : Transition.Run (WalStep P) s as t) :
    t.RoundTrips P cipher :=
  (hrun.invariant (WalState.Inv P cipher) (fun hinv hstep => hinv.step hstep)
    (hfresh.inv hstd)).roundTrips

end RoundTrip

/-! ### A run -/

/-- An RC4 codec between two key operations. -/
theorem rc4Codec_equalCiphers : rc4Codec.EqualCiphers (.rc4 ⟨1, 0, zeros 16⟩) :=
  ⟨rfl, rfl, rfl, rfl, rfl, rfl, trivial, rfl⟩

set_option maxRecDepth 10000 in
/-- A spill, a savepoint, the page again in the same frame, and a commit that repeats it. -/
theorem wal_roundTrip_overwritten :
    (([.frames [zeroPage] 0 false false (zeros 8), .savepoint,
      .frames [zeroPage] 0 false false (zeros 8), .savepointUndo 0,
      .frames [zeroPage] 2 true true (zeros 8)] : List WalAction).foldl
        (WalState.after nullPrimitives) (emptyWal rc4Codec)).RoundTrips nullPrimitives
          (.rc4 ⟨1, 0, zeros 16⟩) := by
  refine @wal_roundTrip nullPrimitives (.rc4 ⟨1, 0, zeros 16⟩) (emptyWal rc4Codec) _
    [.frames [zeroPage] 0 false false (zeros 8), .savepoint,
      .frames [zeroPage] 0 false false (zeros 8), .savepointUndo 0,
      .frames [zeroPage] 2 true true (zeros 8)] (emptyWal_fresh rc4Codec)
      ⟨rc4Codec_equalCiphers, rfl, rfl⟩ ?_
  refine .cons ⟨zeroPage_allowed rfl (by decide) (by decide) _, rfl⟩ ?_
  refine .cons ⟨trivial, rfl⟩ ?_
  refine .cons ⟨zeroPage_allowed rfl (by decide) (by decide) _, rfl⟩ ?_
  refine .cons ⟨trivial, rfl⟩ ?_
  refine .cons ⟨zeroPage_allowed rfl (by decide) (by decide) _, rfl⟩ ?_
  exact .nil _

end MultipleCiphers
