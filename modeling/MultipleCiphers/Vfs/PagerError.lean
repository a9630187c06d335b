import MultipleCiphers.Vfs.Stack
import MultipleCiphers.Lib.Transition

/-!
# The error state of the pager

A pager is in its error state exactly when its error code is set, and it fetches pages with the
error getter then. SQLite keeps to this by setting the three together. The codec writes them from
outside: when a page cannot be decrypted or encrypted, and when a codec is installed, replaced or
removed, which is to reset the error state.

The reset clears the code and chooses another getter. It leaves the state as it is, so that a pager
that was in the error state stays there without a code. All other events keep the three in step.

## The model

A pager is found from a codec by its B-tree, and the codec of a pager's file by the VFS of the
connection; the lookups are those of Vfs/Stack. The codec that fails is any codec of this pager. Of
the pager there is what the codec writes and what the choice of the getter looks at.

## Main results

* `consistent_iff_guarded` — the runs that keep the pager consistent.
* `errorState_without_code` — a codec installed in the error state.
-/

namespace MultipleCiphers

open Transition

/-- `Pager.eState`. -/
inductive PagerEState where
  | open
  | reader
  | writerLocked
  | writerCachemod
  | writerDbmod
  | writerFinished
  | error
  deriving DecidableEq, Repr

/-- What the codec has to do with in a pager. -/
structure PagerState where
  eState : PagerEState
  errCode : ResultCode
  xGet : GetPage
  bUseFetch : Bool
  tempFile : Bool
  iDataVersion : ℕ
  /-- The pages in `pPCache`. -/
  cached : List ℕ

/-- A database and its pager, with the VFSs of the process. -/
structure CodecPager (σ : Type) where
  vfses : Vfses σ
  db : OpenDb σ
  pager : PagerState
  /-- `errCode` of the connection. -/
  dbErrCode : ResultCode
  env : Env

/-- `sqlite3PagerClearCache`, with `pager_reset`. -/
def sqlite3PagerClearCache (pager : PagerState) : PagerState :=
  if pager.tempFile then pager
  else { pager with iDataVersion := pager.iDataVersion + 1, cached := [] }

namespace CodecPager

variable {σ : Type}

/-- `setGetterMethod`. -/
def setGetter (s : CodecPager σ) : CodecPager σ :=
  { s with pager := { s.pager with
      xGet := setGetterMethod s.vfses s.db (s.pager.errCode ≠ .ok) s.pager.bUseFetch } }

/-- `mcReportCodecError`. -/
def mcReportCodecError (s : CodecPager σ) (err : ResultCode) : CodecPager σ :=
  let s := { s with dbErrCode := err, pager := { s.pager with errCode := err } }
  let s := if err ≠ .ok then { s with pager := { s.pager with eState := .error } } else s
  -- clear cache to force reread of database after a new passphrase has been set
  let s := if err = .ok then { s with pager := sqlite3PagerClearCache s.pager } else s
  s.setGetter

/-- The codec of the file that `mcFindDbMainFileName` finds is replaced, in the list of its VFS and
in the handle of the pager. -/
def setFileCodec (s : CodecPager σ) (vfs : ℕ) (codec : Option (Codec σ)) : CodecPager σ :=
  let files := s.vfses.pMain vfs
  let found := files.findIdx fun file => file.zFileName = s.db.zFilename
  { s with
    vfses := { s.vfses with
      pMain := Function.update s.vfses.pMain vfs
        (files.modify found fun file => { file with codec := codec }) }
    db := { s.db with
      fd := s.db.fd.map fun
        | .multipleCiphers v file =>
          if v = vfs ∧ file.zFileName = s.db.zFilename then
            .multipleCiphers v { file with codec := codec }
          else .multipleCiphers v file
        | layer => layer } }

/-- The file of the pager, with the VFS it is open in. -/
def mainFile (s : CodecPager σ) : Option (ℕ × MainFile σ) :=
  (mcFindVfs s.vfses s.db).bind fun vfs =>
    (mcFindDbMainFileName s.vfses vfs s.db.zFilename).map fun file => (vfs, file)

/-- `sqlite3mcSetCodec`. Without a file the codec is freed. -/
def sqlite3mcSetCodec (s : CodecPager σ) (codec : Option (Codec σ)) : CodecPager σ :=
  match s.mainFile with
  | some (vfs, file) =>
    let msgCodec := codec.or file.codec
    let s := s.setFileCodec vfs codec
    -- reset error state of pager
    if msgCodec.isSome then s.mcReportCodecError .ok else s
  | none => s

/-- `sqlite3mcCodec` with a codec of this pager, and its report. -/
def runCodec (D : ℕ → CipherDescriptor σ) (s : CodecPager σ) (codec : Codec σ) (data : Bytes)
    (page : ℕ) (mode : CodecMode) : CodecPager σ :=
  let (rc, _, env) := sqlite3mcCodec D codec data page mode s.env
  let s := { s with env := env }
  if rc ≠ .ok then s.mcReportCodecError rc else s

/-- What the codec may do. -/
inductive CodecEvent (σ : Type) where
  /-- A page is decrypted or encrypted. -/
  | page (codec : Codec σ) (data : Bytes) (page : ℕ) (mode : CodecMode)
  /-- A codec is installed or replaced, or removed. -/
  | setCodec (codec : Option (Codec σ))

/-- What an event makes of the pager. -/
def exec (D : ℕ → CipherDescriptor σ) (s : CodecPager σ) : CodecEvent σ → CodecPager σ
  | .page codec data page mode => s.runCodec D codec data page mode
  | .setCodec codec => s.sqlite3mcSetCodec codec

def Step (D : ℕ → CipherDescriptor σ) (s : CodecPager σ) (e : CodecEvent σ) (t : CodecPager σ) :
    Prop :=
  s.exec D e = t

/-! ### Consistency -/

/-- The error state, the error code and the error getter go together. -/
structure Consistent (s : CodecPager σ) : Prop where
  eState : s.pager.eState = .error ↔ s.pager.errCode ≠ .ok
  xGet : s.pager.xGet = .error ↔ s.pager.errCode ≠ .ok

/-- No codec is installed, replaced or removed in the error state. -/
def Guard (s : CodecPager σ) : CodecEvent σ → Prop
  | .page .. => True
  | .setCodec codec => s.pager.eState = .error →
      ∀ vfs file, s.mainFile = some (vfs, file) → codec = none ∧ file.codec = none

variable {D : ℕ → CipherDescriptor σ} {s t : CodecPager σ} {e : CodecEvent σ}

theorem setGetterMethod_eq_error_iff (w : Vfses σ) (db : OpenDb σ) (errCode bUseFetch : Bool) :
    setGetterMethod w db errCode bUseFetch = .error ↔ errCode = true := by
  rw [setGetterMethod]
  split_ifs with herr <;> simp [herr]

/-- The getter is chosen by the code. -/
theorem setGetter_xGet (s : CodecPager σ) :
    s.setGetter.pager.xGet = .error ↔ s.setGetter.pager.errCode ≠ .ok := by
  rw [setGetter, setGetterMethod_eq_error_iff, decide_eq_true_iff]

/-- A report of an error sets all three. -/
theorem mcReportCodecError_consistent (s : CodecPager σ) {err : ResultCode}
    (herror : err ≠ .ok) : Consistent (s.mcReportCodecError err) := by
  rw [mcReportCodecError]
  simp only [if_pos herror, if_neg herror]
  refine ⟨?_, setGetter_xGet _⟩
  exact iff_of_true rfl herror

/-- The reset clears the code and leaves the state. -/
theorem mcReportCodecError_ok (s : CodecPager σ) :
    (s.mcReportCodecError .ok).pager.eState = s.pager.eState ∧
      (s.mcReportCodecError .ok).pager.errCode = .ok := by
  rw [mcReportCodecError]
  simp only [ne_eq, not_true, if_false, if_true, setGetter, sqlite3PagerClearCache]
  split_ifs <;> exact ⟨rfl, rfl⟩

/-- The reset is consistent outside the error state only. -/
theorem mcReportCodecError_ok_consistent_iff (s : CodecPager σ) :
    Consistent (s.mcReportCodecError .ok) ↔ s.pager.eState ≠ .error := by
  obtain ⟨heState, herrCode⟩ := mcReportCodecError_ok s
  constructor
  · intro h herror
    exact h.eState.mp (heState.trans herror) herrCode
  · intro hstate
    refine ⟨?_, setGetter_xGet _⟩
    rw [heState, herrCode]
    exact iff_of_false hstate (by simp)

/-- Replacing the codec of the file does not touch the pager. -/
theorem setFileCodec_consistent_iff (s : CodecPager σ) (vfs : ℕ) (codec : Option (Codec σ)) :
    Consistent (s.setFileCodec vfs codec) ↔ Consistent s :=
  ⟨fun h => ⟨h.eState, h.xGet⟩, fun h => ⟨h.eState, h.xGet⟩⟩

/-- **One event** keeps the pager consistent if and only if it meets the guard. -/
theorem Consistent.exec_iff (h : Consistent s) (D : ℕ → CipherDescriptor σ) (e : CodecEvent σ) :
    Consistent (s.exec D e) ↔ Guard s e := by
  cases e with
  | page codec data page mode =>
    refine iff_of_true ?_ trivial
    rw [exec, runCodec]
    dsimp only
    split_ifs with hrc
    · exact mcReportCodecError_consistent _ hrc
    · exact ⟨h.eState, h.xGet⟩
  | setCodec codec =>
    rw [exec, CodecPager.sqlite3mcSetCodec, Guard]
    cases hfile : s.mainFile with
    | none => exact iff_of_true h fun _ _ _ hnone => by cases hnone
    | some found =>
      obtain ⟨vfs, file⟩ := found
      dsimp only
      by_cases hcodec : codec = none ∧ file.codec = none
      · have hmsg : (codec.or file.codec).isSome ≠ true := by
          rw [hcodec.1, hcodec.2, Option.or_none]
          simp
        rw [if_neg hmsg, setFileCodec_consistent_iff]
        refine iff_of_true h fun _ vfs' file' heq => ?_
        obtain ⟨-, rfl⟩ := Prod.mk.inj (Option.some_inj.mp heq)
        exact hcodec
      · have hmsg : (codec.or file.codec).isSome = true := by
          cases codec with
          | some codec => rfl
          | none =>
            rw [Option.none_or]
            exact Option.isSome_iff_ne_none.mpr fun hnone => hcodec ⟨rfl, hnone⟩
        rw [if_pos hmsg, mcReportCodecError_ok_consistent_iff]
        exact ⟨fun hstate herror => absurd herror hstate,
          fun hguard herror => hcodec (hguard herror vfs file rfl)⟩

/-- **The pager stays consistent** along a run of codec events, in every state of it, if and only if
none of them installs, replaces or removes a codec while the pager is in the error state. -/
theorem consistent_iff_guarded (D : ℕ → CipherDescriptor σ) {s t : CodecPager σ}
    {es : List (CodecEvent σ)} (h : Consistent s) :
    GuardedRun (Step D) Guard s es t ↔ Always (Step D) Consistent s es t := by
  refine guardedRun_iff_always (fun _ => True) (fun _ _ => trivial) ?_ trivial h
  rintro s t e - hs rfl
  exact hs.exec_iff D e

/-! ### A codec in the error state -/

/-- The plain database, with its pager in a read transaction. -/
def readingPager : CodecPager Cipher where
  vfses := shimVfses
  db := plainDb
  pager := ⟨.reader, .ok, .normal, false, false, 0, [1]⟩
  dbErrCode := .ok
  env := ⟨[], [], fun _ => true, fun _ => 0, fun _ => .enough⟩

/-- The same after an input or output error. -/
def failedPager : CodecPager Cipher :=
  { readingPager with pager := ⟨.error, .ioerr, .error, false, false, 0, [1]⟩ }

/-- A codec is replaced and removed while pages are read. -/
theorem consistent_iff_guarded_reading :
    ∃ t, Always (Step (builtinDescriptors nullPrimitives)) Consistent readingPager
      [.setCodec (some chacha20Codec), .setCodec none] t := by
  refine ⟨_, (consistent_iff_guarded (builtinDescriptors nullPrimitives) ?_).mp
    (GuardedRun.cons ?_ rfl (GuardedRun.cons ?_ rfl (GuardedRun.nil _)))⟩
  · exact ⟨iff_of_false (by decide) (by decide), iff_of_false (by decide) (by decide)⟩
  · exact fun herror => by cases herror
  · exact fun herror => by cases herror

/-- A codec is installed after an input or output error: the pager is in the error state without an
error code. -/
theorem errorState_without_code :
    Consistent failedPager ∧
      ∃ t, Transition.Run (Step (builtinDescriptors nullPrimitives)) failedPager
        [.setCodec (some chacha20Codec)] t ∧
      t.pager.eState = .error ∧ t.pager.errCode = .ok :=
  ⟨⟨iff_of_true rfl (by decide), iff_of_true rfl (by decide)⟩,
    _, Run.cons rfl (Run.nil _), rfl, rfl⟩

end CodecPager

end MultipleCiphers
