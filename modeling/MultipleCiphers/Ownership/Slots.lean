import MultipleCiphers.Ownership.Model

/-!
# What a codec owns

A codec has two slots for ciphers. `Owns` says that what is in them is alive and belongs to the
descriptor that the codec names, and that the slots do not share a cipher. `Frame` says what a
function of one codec leaves alone: a cipher that the codec did not hold before is there afterwards,
and the codec does not hold it now. Both are about one codec only, so that what many codecs have to
do with each other follows from them once and for all.

There is one lemma for each function. It says that the function does not fail, and what the codec
looks like afterwards.

## Main definitions

* `Codec.Holds`, `Codec.Owns`, `Codec.Frame`, `Codec.Claims`.

## Main results

* `sqlite3mcCopyCipher_write`, `sqlite3mcCopyCipher_read`, `sqlite3mcSetupWriteCipher_spec`,
  `sqlite3mcCodecSetup_spec`, `sqlite3mcCodecCopy_spec`, `sqlite3mcCodecTerm_spec`.
-/

namespace MultipleCiphers

namespace Codec

/-- One of the slots of the codec has the cipher at `a`. -/
def Holds (codec : Codec ℕ) (a : ℕ) : Prop := codec.readCipher = some a ∨ codec.writeCipher = some a

/-- The ciphers of the codec are alive, each is one of the descriptor that the codec names for it,
and they are not the same. -/
structure Owns (cipherCount : ℕ) (h : Heap ℕ) (codec : Codec ℕ) : Prop where
  read : ∀ a, codec.readCipher = some a →
    h.get a = some codec.readCipherType ∧ registeredType cipherCount codec.readCipherType = true
  write : ∀ a, codec.writeCipher = some a →
    h.get a = some codec.writeCipherType ∧ registeredType cipherCount codec.writeCipherType = true
  apart : ∀ a, codec.readCipher = some a → codec.writeCipher ≠ some a

/-- From `codec` to `codec'` all ciphers that `codec` does not hold are left alone. -/
def Frame (h : Heap ℕ) (codec : Codec ℕ) (h' : Heap ℕ) (codec' : Codec ℕ) : Prop :=
  ∀ a t, h.get a = some t → ¬ codec.Holds a → h'.get a = some t ∧ ¬ codec'.Holds a

/-- An encrypted codec has the ciphers that it says it has. -/
def Claims (codec : Codec ℕ) : Prop :=
  codec.isEncrypted = true →
    (codec.hasReadCipher = true → codec.readCipher ≠ none) ∧
      (codec.hasWriteCipher = true → codec.writeCipher ≠ none)

theorem Frame.refl (h : Heap ℕ) (codec : Codec ℕ) : Frame h codec h codec :=
  fun _ _ ha hn => ⟨ha, hn⟩

/-- What a codec holds is there. -/
theorem Owns.live {cipherCount : ℕ} {h : Heap ℕ} {codec : Codec ℕ} (hown : codec.Owns cipherCount h)
    {a : ℕ} (ha : codec.Holds a) : ∃ t, h.get a = some t := by
  rcases ha with ha | ha
  · exact ⟨_, (hown.read a ha).1⟩
  · exact ⟨_, (hown.write a ha).1⟩

end Codec

/-! ### The methods of a descriptor -/

section Methods

variable {cipherCount : ℕ} {h : Heap ℕ} {t : ℕ}

/-- A new cipher, if it is granted. -/
theorem allocateCipher_spec (ht : registeredType cipherCount t = true) (granted : Bool) :
    ∃ cipher h', allocateCipher cipherCount h t granted = some (cipher, h') ∧
      cipher.isSome = granted ∧
      (∀ a, cipher = some a → h'.get a = some t ∧ h.get a = none) ∧
      ∀ a x, h.get a = some x → h'.get a = some x := by
  rw [allocateCipher, if_pos ht]
  cases granted with
  | false => exact ⟨none, h, rfl, rfl, fun a ha => (by cases ha), fun a x ha => ha⟩
  | true =>
    refine ⟨some h.next, h.alloc t, rfl, rfl, fun a ha => ?_, fun a x ha => Heap.get_alloc ha t⟩
    obtain rfl := Option.some_inj.mp ha
    exact ⟨Heap.get_alloc_self h t, Heap.get_next h⟩

/-- A cipher in a slot can be freed. -/
theorem freeSlot_spec {cipher : Option ℕ}
    (hc : ∀ a, cipher = some a → h.get a = some t ∧ registeredType cipherCount t = true) :
    ∃ h', CodecPtr.freeSlot cipherCount h t cipher = some h' ∧
      ∀ a, cipher ≠ some a → h'.get a = h.get a := by
  rcases cipher with _ | a
  · exact ⟨h, rfl, fun a _ => rfl⟩
  · obtain ⟨hlive, ht⟩ := hc a rfl
    refine ⟨h.free a, ?_, fun b hb => Heap.get_free_of_ne fun hab => hb (by rw [hab])⟩
    rw [CodecPtr.freeSlot, freeCipher, if_pos ⟨ht, hlive⟩]

/-- A cipher in a slot can be used. -/
theorem useCipher_spec {cipher : Option ℕ}
    (hc : ∀ a, cipher = some a → h.get a = some t ∧ registeredType cipherCount t = true)
    (hsome : cipher ≠ none) : useCipher cipherCount h t cipher = some () := by
  rcases cipher with _ | a
  · exact absurd rfl hsome
  · rw [useCipher, if_pos ⟨(hc a rfl).2, (hc a rfl).1⟩]

/-- An empty slot is filled. -/
theorem cloneIntoSlot_none {b : ℕ} (hsource : h.get b = some t)
    (ht : registeredType cipherCount t = true) (granted : Bool) :
    ∃ cipher h', CodecPtr.cloneIntoSlot cipherCount h none t (some b) granted = some (cipher, h') ∧
      cipher.isSome = granted ∧
      (∀ a, cipher = some a → h'.get a = some t ∧ h.get a = none) ∧
      ∀ a x, h.get a = some x → h'.get a = some x := by
  obtain ⟨cipher, h', hal, hsome, hnew, hold⟩ := allocateCipher_spec (h := h) ht granted
  refine ⟨cipher, h', ?_, hsome, hnew, hold⟩
  rw [CodecPtr.cloneIntoSlot, if_pos rfl, hal, Option.bind_eq_bind, Option.bind_some]
  dsimp only
  rcases cipher with _ | a
  · rfl
  · have htarget : useCipher cipherCount h' t (some a) = some () :=
      useCipher_spec (fun c hc => ⟨(hnew c hc).1, ht⟩) (by simp)
    have hb : useCipher cipherCount h' t (some b) = some () :=
      useCipher_spec (fun c hc => ⟨Option.some_inj.mp hc ▸ hold b t hsource, ht⟩) (by simp)
    simp only [cloneCipher, htarget, hb, Option.bind_eq_bind, Option.bind_some, Option.map_some]

/-- A cipher of the right type is cloned over. -/
theorem cloneIntoSlot_some {a b : ℕ} (htarget : h.get a = some t) (hsource : h.get b = some t)
    (ht : registeredType cipherCount t = true) (granted : Bool) :
    CodecPtr.cloneIntoSlot cipherCount h (some a) t (some b) granted = some (some a, h) := by
  have ha : useCipher cipherCount h t (some a) = some () :=
    useCipher_spec (fun c hc => ⟨Option.some_inj.mp hc ▸ htarget, ht⟩) (by simp)
  have hb : useCipher cipherCount h t (some b) = some () :=
    useCipher_spec (fun c hc => ⟨Option.some_inj.mp hc ▸ hsource, ht⟩) (by simp)
  rw [CodecPtr.cloneIntoSlot, if_neg (by simp)]
  simp only [cloneCipher, ha, hb, Option.bind_eq_bind, Option.bind_some, Option.map_some]

/-- **One branch of `sqlite3mcCopyCipher`.** The source is in another slot. -/
theorem copySlot_spec {targetType sourceType b : ℕ} {target : Option ℕ}
    (htarget : ∀ a, target = some a →
      h.get a = some targetType ∧ registeredType cipherCount targetType = true)
    (hsource : h.get b = some sourceType) (htype : registeredType cipherCount sourceType = true)
    (hne : target ≠ some b) (granted : Bool) :
    ∃ cipher h', CodecPtr.copySlot cipherCount h targetType target sourceType (some b) granted =
        some (cipher, h') ∧
      (∀ a, cipher = some a → h'.get a = some sourceType ∧ a ≠ b) ∧
      (∀ a x, h.get a = some x → target ≠ some a → h'.get a = some x ∧ cipher ≠ some a) ∧
      (granted = true ∨ (target ≠ none ∧ targetType = sourceType) → cipher ≠ none) := by
  -- a slot that is empty, or has been emptied
  have hempty : ∀ h₀ : Heap ℕ, (∀ a, target ≠ some a → h₀.get a = h.get a) →
      ∃ cipher h', CodecPtr.cloneIntoSlot cipherCount h₀ none sourceType (some b) granted =
          some (cipher, h') ∧
        (∀ a, cipher = some a → h'.get a = some sourceType ∧ a ≠ b) ∧
        (∀ a x, h.get a = some x → target ≠ some a → h'.get a = some x ∧ cipher ≠ some a) ∧
        (granted = true → cipher ≠ none) := by
    intro h₀ hkeep
    have hb : h₀.get b = some sourceType := (hkeep b hne).trans hsource
    obtain ⟨cipher, h', heq, hsome, hnew, hold⟩ := cloneIntoSlot_none hb htype granted
    refine ⟨cipher, h', heq, fun a ha => ⟨(hnew a ha).1, ?_⟩, fun a x ha hta => ?_, ?_⟩
    · rintro rfl
      rw [(hnew a ha).2] at hb
      cases hb
    · have ha₀ : h₀.get a = some x := (hkeep a hta).trans ha
      refine ⟨hold a x ha₀, fun hc => ?_⟩
      rw [(hnew a hc).2] at ha₀
      cases ha₀
    · rintro rfl rfl
      cases hsome
  rcases target with _ | a
  · obtain ⟨cipher, h', heq, hnew, hold, hgranted⟩ := hempty h fun a _ => rfl
    refine ⟨cipher, h', ?_, hnew, hold, fun hcond => hgranted ?_⟩
    · rw [CodecPtr.copySlot, if_neg (by simp), heq]
    · exact hcond.resolve_right fun hc => hc.1 rfl
  · by_cases htypes : targetType = sourceType
    · -- the cipher stays in its slot
      subst htypes
      obtain ⟨hlive, -⟩ := htarget a rfl
      refine ⟨some a, h, ?_, fun c hc => ?_, fun c x hc hca => ⟨hc, hca⟩, fun _ => by simp⟩
      · rw [CodecPtr.copySlot, if_neg (by simp), cloneIntoSlot_some hlive hsource htype]
      · obtain rfl := Option.some_inj.mp hc
        exact ⟨hlive, fun hab => hne (by rw [hab])⟩
    · obtain ⟨h₀, hfree, hkeep⟩ := freeSlot_spec htarget
      obtain ⟨cipher, h', heq, hnew, hold, hgranted⟩ := hempty h₀ hkeep
      refine ⟨cipher, h', ?_, hnew, hold, fun hcond => hgranted ?_⟩
      · rw [CodecPtr.copySlot, if_pos ⟨rfl, htypes⟩, hfree, Option.bind_eq_bind,
          Option.bind_some, heq]
      · exact hcond.resolve_right fun hc => htypes hc.2

end Methods

/-! ### The functions on one codec -/

section Codec

variable {cipherCount : ℕ} {h : Heap ℕ} {codec : Codec ℕ}

/-- **The read cipher is copied into the write cipher.** -/
theorem sqlite3mcCopyCipher_write (hown : codec.Owns cipherCount h) {b : ℕ}
    (hread : codec.readCipher = some b) (granted : Bool) :
    ∃ rc cipher h', CodecPtr.sqlite3mcCopyCipher cipherCount true codec h granted = some (rc,
        { codec with writeCipherType := codec.readCipherType, writeCipher := cipher }, h') ∧
      (rc = .ok ↔ cipher ≠ none) ∧
      Codec.Owns cipherCount h'
        { codec with writeCipherType := codec.readCipherType, writeCipher := cipher } ∧
      Codec.Frame h codec h'
        { codec with writeCipherType := codec.readCipherType, writeCipher := cipher } ∧
      (granted = true ∨ (codec.writeCipher ≠ none ∧ codec.writeCipherType = codec.readCipherType) →
        cipher ≠ none) := by
  obtain ⟨hlive, htype⟩ := hown.read b hread
  obtain ⟨cipher, h', heq, hnew, hold, hgranted⟩ :=
    copySlot_spec hown.write hlive htype (hown.apart b hread) granted
  refine ⟨if cipher.isSome then .ok else .nomem, cipher, h', ?_, ?_,
    ⟨fun a ha => ?_, fun a ha => ?_,
    fun a ha hw => ?_⟩, fun a t ha hn => ?_, hgranted⟩
  · rw [CodecPtr.sqlite3mcCopyCipher, if_pos rfl, hread, heq, Option.bind_eq_bind, Option.bind_some]
    rfl
  · cases cipher <;> simp
  · have hab : a = b := Option.some_inj.mp (ha.symm.trans hread)
    subst hab
    exact ⟨(hold a _ hlive (hown.apart a hread)).1, htype⟩
  · exact ⟨(hnew a ha).1, htype⟩
  · exact (hnew a hw).2 (Option.some_inj.mp (ha.symm.trans hread))
  · obtain ⟨hlive', hne⟩ := hold a t ha fun hw => hn (Or.inr hw)
    exact ⟨hlive', fun hc => hc.elim (fun hr => hn (Or.inl hr)) hne⟩

/-- **The write cipher is copied into the read cipher.** -/
theorem sqlite3mcCopyCipher_read (hown : codec.Owns cipherCount h) {b : ℕ}
    (hwrite : codec.writeCipher = some b) (granted : Bool) :
    ∃ rc cipher h', CodecPtr.sqlite3mcCopyCipher cipherCount false codec h granted = some (rc,
        { codec with readCipherType := codec.writeCipherType, readCipher := cipher }, h') ∧
      Codec.Owns cipherCount h'
        { codec with readCipherType := codec.writeCipherType, readCipher := cipher } ∧
      Codec.Frame h codec h'
        { codec with readCipherType := codec.writeCipherType, readCipher := cipher } ∧
      (granted = true ∨ (codec.readCipher ≠ none ∧ codec.readCipherType = codec.writeCipherType) →
        cipher ≠ none) := by
  obtain ⟨hlive, htype⟩ := hown.write b hwrite
  have hapart : codec.readCipher ≠ some b := fun hr => hown.apart b hr hwrite
  obtain ⟨cipher, h', heq, hnew, hold, hgranted⟩ :=
    copySlot_spec hown.read hlive htype hapart granted
  refine ⟨if cipher.isSome then .ok else .nomem, cipher, h', ?_, ⟨fun a ha => ?_, fun a ha => ?_,
    fun a ha hw => ?_⟩, fun a t ha hn => ?_, hgranted⟩
  · rw [CodecPtr.sqlite3mcCopyCipher, if_neg (by decide), hwrite, heq, Option.bind_eq_bind,
      Option.bind_some]
    rfl
  · exact ⟨(hnew a ha).1, htype⟩
  · have hab : a = b := Option.some_inj.mp (ha.symm.trans hwrite)
    subst hab
    exact ⟨(hold a _ hlive hapart).1, htype⟩
  · exact (hnew a ha).2 (Option.some_inj.mp (hw.symm.trans hwrite))
  · obtain ⟨hlive', hne⟩ := hold a t ha fun hr => hn (Or.inl hr)
    exact ⟨hlive', fun hc => hc.elim hne fun hw => hn (Or.inr hw)⟩

/-- **`sqlite3mcSetupWriteCipher`**: the old write cipher is freed, and there is a new one if it was
granted. -/
theorem sqlite3mcSetupWriteCipher_spec (hown : codec.Owns cipherCount h) {cipherType : ℤ}
    (hpos : 0 < cipherType) (htype : cipherType ≤ cipherCount) (granted : Bool) :
    ∃ cipher h', CodecPtr.sqlite3mcSetupWriteCipher cipherCount codec h cipherType granted =
        some (if granted then .ok else .nomem,
          { codec with
            isEncrypted := true
            hasWriteCipher := true
            writeCipherType := cipherType.toNat
            writeCipher := cipher }, h') ∧
      cipher.isSome = granted ∧
      Codec.Owns cipherCount h' { codec with
        isEncrypted := true
        hasWriteCipher := true
        writeCipherType := cipherType.toNat
        writeCipher := cipher } ∧
      Codec.Frame h codec h' { codec with
        isEncrypted := true
        hasWriteCipher := true
        writeCipherType := cipherType.toNat
        writeCipher := cipher } := by
  have hreg : registeredType cipherCount cipherType.toNat = true := by
    rw [registeredType]
    exact decide_eq_true (by omega)
  obtain ⟨h₀, hfree, hkeep⟩ := freeSlot_spec hown.write
  obtain ⟨cipher, h', hal, hsome, hnew, hold⟩ := allocateCipher_spec (h := h₀) hreg granted
  refine ⟨cipher, h', ?_, hsome, ⟨fun a ha => ?_, fun a ha => ?_, fun a ha hw => ?_⟩,
    fun a t ha hn => ?_⟩
  · rw [CodecPtr.sqlite3mcSetupWriteCipher, if_neg (by omega), hfree, Option.bind_eq_bind,
      Option.bind_some, hal, Option.bind_eq_bind, Option.bind_some]
    dsimp only
    rcases cipher with _ | a
    · rw [← hsome]
      rfl
    · have huse : useCipher cipherCount h' cipherType.toNat (some a) = some () :=
        useCipher_spec (fun c hc => ⟨(hnew c hc).1, hreg⟩) (by simp)
      rw [if_pos (show (some a).isSome = true from rfl), huse, ← hsome]
      rfl
  · obtain ⟨hlive, ht⟩ := hown.read a ha
    exact ⟨hold a _ ((hkeep a (hown.apart a ha)).trans hlive), ht⟩
  · exact ⟨(hnew a ha).1, hreg⟩
  · have hlive := (hkeep a (hown.apart a ha)).trans (hown.read a ha).1
    rw [(hnew a hw).2] at hlive
    cases hlive
  · have hlive : h₀.get a = some t := (hkeep a fun hw => hn (Or.inr hw)).trans ha
    refine ⟨hold a t hlive, fun hc => ?_⟩
    rcases hc with hr | hw
    · exact hn (Or.inl hr)
    · rw [(hnew a hw).2] at hlive
      cases hlive

theorem sqlite3mcSetupWriteCipher_unknownType {cipherType : ℤ} (hpos : cipherType ≤ 0)
    (granted : Bool) :
    CodecPtr.sqlite3mcSetupWriteCipher cipherCount codec h cipherType granted =
      some (.error, codec, h) := by
  rw [CodecPtr.sqlite3mcSetupWriteCipher, if_pos hpos]

/-- **`sqlite3mcCodecSetup`** of a new codec: if it succeeds the codec has what it claims. -/
theorem sqlite3mcCodecSetup_spec {cipherType : ℤ} (htype : cipherType ≤ cipherCount)
    (readGranted writeGranted : Bool) :
    ∃ rc codec' h', CodecPtr.sqlite3mcCodecSetup cipherCount sqlite3mcCodecInit h cipherType
        readGranted writeGranted = some (rc, codec', h') ∧
      codec'.Owns cipherCount h' ∧ Codec.Frame h sqlite3mcCodecInit h' codec' ∧
      (rc = .ok → codec'.Claims) := by
  have hinit : ∀ h₀ : Heap ℕ, Codec.Owns cipherCount h₀ sqlite3mcCodecInit := fun h₀ =>
    ⟨fun a ha => (by cases ha), fun a ha => (by cases ha), fun a ha => (by cases ha)⟩
  by_cases hpos : cipherType ≤ 0
  · refine ⟨.error, sqlite3mcCodecInit, h, ?_, hinit h, Codec.Frame.refl _ _,
      fun hrc => by cases hrc⟩
    rw [CodecPtr.sqlite3mcCodecSetup, if_pos hpos]
  have hreg : registeredType cipherCount cipherType.toNat = true := by
    rw [registeredType]
    exact decide_eq_true (by omega)
  obtain ⟨cipher, h₀, hal, hsome, hnew, hold⟩ := allocateCipher_spec (h := h) hreg readGranted
  obtain ⟨codec₀, hcodec₀⟩ : ∃ codec₀ : Codec ℕ, codec₀ = { (sqlite3mcCodecInit : Codec ℕ) with
      isEncrypted := true
      hasReadCipher := true
      hasWriteCipher := true
      readCipherType := cipherType.toNat
      readCipher := cipher } := ⟨_, rfl⟩
  have hread : codec₀.readCipher = cipher := by rw [hcodec₀]
  have hwrite : codec₀.writeCipher = none := by rw [hcodec₀]; rfl
  have hown₀ : codec₀.Owns cipherCount h₀ := by
    rw [hcodec₀]
    exact ⟨fun a ha => ⟨(hnew a ha).1, hreg⟩, fun a ha => (by cases ha),
      fun a _ ha => (by cases ha)⟩
  have hframe : Codec.Frame h sqlite3mcCodecInit h₀ codec₀ := by
    intro a t ha _
    refine ⟨hold a t ha, fun hc => ?_⟩
    rcases hc with hc | hc
    · rw [(hnew a (hread ▸ hc)).2] at ha
      cases ha
    · rw [hwrite] at hc
      cases hc
  rcases cipher with _ | r
  · -- no read cipher
    refine ⟨.nomem, codec₀, h₀, ?_, hown₀, hframe, fun hrc => by cases hrc⟩
    rw [CodecPtr.sqlite3mcCodecSetup, if_neg hpos, hal, Option.bind_eq_bind,
      Option.bind_some, hcodec₀]
    rfl
  · obtain ⟨rc, w, h', hcopy, hrc, hown, hframe', -⟩ :=
      sqlite3mcCopyCipher_write hown₀ hread writeGranted
    refine ⟨rc, _, h', ?_, hown, fun a t ha hn => ?_, fun hok henc => ⟨fun _ => ?_, fun _ => ?_⟩⟩
    · have huse : useCipher cipherCount h₀ cipherType.toNat (some r) = some () :=
        useCipher_spec (fun c hc => ⟨(hnew c hc).1, hreg⟩) (by simp)
      rw [CodecPtr.sqlite3mcCodecSetup, if_neg hpos, hal, Option.bind_eq_bind, Option.bind_some,
        ← hcopy, hcodec₀]
      dsimp only
      rw [if_pos (show (some r).isSome = true from rfl), huse]
      rfl
    · obtain ⟨hlive, hnot⟩ := hframe a t ha hn
      exact hframe' a t hlive hnot
    · rw [hread]
      simp
    · exact hrc.mp hok

/-- `sqlite3mcCodecTerm` frees the ciphers of a codec and no other. -/
theorem sqlite3mcCodecTerm_spec (hown : codec.Owns cipherCount h) :
    ∃ h', CodecPtr.sqlite3mcCodecTerm cipherCount codec h = some h' ∧
      ∀ a, ¬ codec.Holds a → h'.get a = h.get a := by
  obtain ⟨h₀, hfree, hkeep⟩ := freeSlot_spec hown.read
  have hwrite : ∀ a, codec.writeCipher = some a → h₀.get a = some codec.writeCipherType ∧
      registeredType cipherCount codec.writeCipherType = true := by
    intro a ha
    obtain ⟨hlive, ht⟩ := hown.write a ha
    exact ⟨(hkeep a fun hr => hown.apart a hr ha).trans hlive, ht⟩
  obtain ⟨h', hfree', hkeep'⟩ := freeSlot_spec hwrite
  refine ⟨h', ?_, fun a ha => ?_⟩
  · rw [CodecPtr.sqlite3mcCodecTerm, hfree, Option.bind_eq_bind, Option.bind_some, hfree']
  · exact (hkeep' a fun hw => ha (Or.inr hw)).trans (hkeep a fun hr => ha (Or.inl hr))

/-- One half of `sqlite3mcCodecCopy`. -/
theorem copyOneSlot_spec {t : ℕ} {hasCipher : Bool} {other : Option ℕ}
    (hother : ∀ a, other = some a → h.get a = some t ∧ registeredType cipherCount t = true)
    (hhas : hasCipher = true → other ≠ none) (granted : Bool) :
    ∃ rc cipher h', CodecPtr.copyOneSlot cipherCount h hasCipher t other granted =
        some (rc, cipher, h') ∧
      (rc = .ok → hasCipher = true → cipher ≠ none) ∧
      (∀ a, cipher = some a → h'.get a = some t ∧ registeredType cipherCount t = true ∧
        h.get a = none) ∧
      ∀ a x, h.get a = some x → h'.get a = some x := by
  cases hasCipher with
  | false =>
    exact ⟨.ok, none, h, rfl, fun _ hc => (by cases hc), fun a ha => (by cases ha),
      fun a x ha => ha⟩
  | true =>
    obtain ⟨b, hb⟩ := Option.ne_none_iff_exists'.mp (hhas rfl)
    obtain ⟨hlive, ht⟩ := hother b hb
    obtain ⟨cipher, h', hal, -, hnew, hold⟩ := allocateCipher_spec (h := h) ht granted
    rcases cipher with _ | a
    · refine ⟨.nomem, none, h', ?_, fun hrc => (by cases hrc), fun a ha => (by cases ha), hold⟩
      rw [CodecPtr.copyOneSlot, if_pos rfl, hal]
      rfl
    · refine ⟨.ok, some a, h', ?_, fun _ _ => (by simp), fun c hc => ?_, hold⟩
      · have htarget : useCipher cipherCount h' t (some a) = some () :=
          useCipher_spec (fun c hc => ⟨(hnew c hc).1, ht⟩) (by simp)
        have hsource : useCipher cipherCount h' t other = some () :=
          useCipher_spec (fun c hc => ⟨hold c t (hother c hc).1, ht⟩) (hhas rfl)
        rw [CodecPtr.copyOneSlot, if_pos rfl, hal, Option.bind_eq_bind, Option.bind_some]
        dsimp only
        rw [if_pos (show (some a).isSome = true from rfl), cloneCipher, htarget, hsource]
        rfl
      · exact ⟨(hnew c hc).1, ht, (hnew c hc).2⟩

/-- **`sqlite3mcCodecCopy`** into a new codec: if it succeeds the codec has what it claims. -/
theorem sqlite3mcCodecCopy_spec {other : Codec ℕ} (hown : other.Owns cipherCount h)
    (hclaims : other.Claims) (henc : other.isEncrypted = true) (readGranted writeGranted : Bool) :
    ∃ rc codec' h', CodecPtr.sqlite3mcCodecCopy cipherCount sqlite3mcCodecInit other h readGranted
        writeGranted = some (rc, codec', h') ∧
      codec'.Owns cipherCount h' ∧ Codec.Frame h sqlite3mcCodecInit h' codec' ∧
      (rc = .ok → codec'.Claims) := by
  obtain ⟨hread, hwrite⟩ := hclaims henc
  obtain ⟨rcRead, r, h₁, hr, hrok, hrnew, hrold⟩ := copyOneSlot_spec hown.read hread readGranted
  have hwlive : ∀ a, other.writeCipher = some a → h₁.get a = some other.writeCipherType ∧
      registeredType cipherCount other.writeCipherType = true := fun a ha =>
    ⟨hrold a _ (hown.write a ha).1, (hown.write a ha).2⟩
  obtain ⟨rcWrite, w, h₂, hw, hwok, hwnew, hwold⟩ := copyOneSlot_spec hwlive hwrite writeGranted
  have hcopy : CodecPtr.sqlite3mcCodecCopy cipherCount sqlite3mcCodecInit other h readGranted
      writeGranted = some (if rcRead = .ok then rcWrite else rcRead,
        { (sqlite3mcCodecInit : Codec ℕ) with
          isEncrypted := other.isEncrypted
          hasReadCipher := other.hasReadCipher
          hasWriteCipher := other.hasWriteCipher
          readCipherType := other.readCipherType
          writeCipherType := other.writeCipherType
          readCipher := r
          writeCipher := w }, h₂) := by
    rw [CodecPtr.sqlite3mcCodecCopy, hr, Option.bind_eq_bind, Option.bind_some]
    dsimp only
    rw [hw]
    rfl
  refine ⟨_, _, h₂, hcopy, ⟨fun a ha => ?_, fun a ha => ?_, fun a ha ha' => ?_⟩, fun a t ha _ => ?_,
    fun hok _ => ⟨fun hhas => ?_, fun hhas => ?_⟩⟩
  · exact ⟨hwold a _ (hrnew a ha).1, (hrnew a ha).2.1⟩
  · exact ⟨(hwnew a ha).1, (hwnew a ha).2.1⟩
  · -- the read cipher was there when the write cipher was allocated
    have hlive := (hrnew a ha).1
    rw [(hwnew a ha').2.2] at hlive
    cases hlive
  · refine ⟨hwold a t (hrold a t ha), fun hc => ?_⟩
    rcases hc with hc | hc
    · rw [(hrnew a hc).2.2] at ha
      cases ha
    · have hlive := hrold a t ha
      rw [(hwnew a hc).2.2] at hlive
      cases hlive
  · split at hok
    · rename_i hrc
      exact hrok hrc hhas
    · rename_i hrc
      exact absurd hok hrc
  · split at hok
    · exact hwok hok hhas
    · rename_i hrc
      exact absurd hok hrc

/-- The write cipher can be asked. -/
theorem askWriteCipher_spec (hown : codec.Owns cipherCount h) :
    CodecPtr.askWriteCipher cipherCount codec h = some () := by
  rw [CodecPtr.askWriteCipher]
  split
  · rename_i hask
    refine useCipher_spec hown.write fun hnone => ?_
    rw [hnone] at hask
    simp at hask
  · rfl

/-- A page can go through a codec that has what it claims. -/
theorem sqlite3mcCodec_spec (hown : codec.Owns cipherCount h) (hclaims : codec.Claims)
    (mode : CodecMode) : CodecPtr.sqlite3mcCodec cipherCount codec h mode = some () := by
  unfold CodecPtr.sqlite3mcCodec
  by_cases henc : codec.isEncrypted = true
  · obtain ⟨hread, hwrite⟩ := hclaims henc
    have hload : (if codec.hasReadCipher = true then
        useCipher cipherCount h codec.readCipherType codec.readCipher else some ()) = some () := by
      split
      · exact useCipher_spec hown.read (hread ‹_›)
      · rfl
    rw [if_pos henc]
    cases mode with
    | load => exact hload
    | journal => exact hload
    | database =>
      dsimp only
      split
      · exact useCipher_spec hown.write (hwrite ‹_›)
      · rfl
  · rw [if_neg henc]

end Codec

end MultipleCiphers
