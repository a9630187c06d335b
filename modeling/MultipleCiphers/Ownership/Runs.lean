import MultipleCiphers.Ownership.Slots
import MultipleCiphers.Lib.Transition

/-!
# Codecs along a run

Main database files are opened and closed, get a codec with a key of their own or with that of the
main database, lose it, are rekeyed, and have pages loaded and stored, in any order and with any of
the allocations failing. `CodecState.Good` is what holds in between: each codec owns its ciphers and
has those that it claims, no two codecs share a cipher, no two files share a codec, and the codecs
of the files are alive.

Within one of the operations there is one codec that need not have what it claims. `InHand` is the
state then. A function of this codec keeps it if it keeps `Owns` and `Frame`, and everything that is
about more than one codec is in this one step.

## What has to be assumed

`sqlite3mcCopyCipher` at the end of `sqlite3_rekey_v2` may need memory, and its result code is not
looked at. A file that is not in the list of main database files loses the new codec at once, and
the rekey goes on with it. The number of the pending cipher is not compared with the count of
ciphers. `RekeySafe` excludes these three, and nothing else.

## Main results

* `Good.exec` — an operation does not fail and leaves a good state.
* `codec_invariant` — along every run of safe operations.
* `rekey_copyRefused` — an encrypted codec without a read cipher.
-/

namespace MultipleCiphers

open Transition

namespace CodecState

/-! ### The invariant -/

/-- What the codecs have to do with each other and with the files. -/
structure Sound (cipherCount : ℕ) (s : CodecState) : Prop where
  owns : ∀ c codec, s.codecs.get c = some codec → codec.Owns cipherCount s.ciphers
  apart : ∀ c c' codec codec' a, s.codecs.get c = some codec → s.codecs.get c' = some codec' →
    codec.Holds a → codec'.Holds a → c = c'
  alive : ∀ f c, s.files f = some (some c) → ∃ codec, s.codecs.get c = some codec
  filesApart : ∀ f f' c, s.files f = some (some c) → s.files f' = some (some c) → f = f'

/-- The state between two operations: every codec has what it claims. -/
structure Good (cipherCount : ℕ) (s : CodecState) : Prop extends Sound cipherCount s where
  claims : ∀ c codec, s.codecs.get c = some codec → codec.Claims

/-- The state within an operation on the codec at `c`: every other codec has what it claims. -/
structure InHand (cipherCount : ℕ) (s : CodecState) (c : ℕ) (codec : Codec ℕ) : Prop
    extends Sound cipherCount s where
  get : s.codecs.get c = some codec
  others : ∀ c' codec', c' ≠ c → s.codecs.get c' = some codec' → codec'.Claims

/-- No file has the codec at `c`. -/
def Unattached (s : CodecState) (c : ℕ) : Prop := ∀ f, s.files f ≠ some (some c)

section Steps

variable {cipherCount : ℕ} {s : CodecState} {c f : ℕ} {codec codec' : Codec ℕ}

theorem Good.inHand (h : Good cipherCount s) (hget : s.codecs.get c = some codec) :
    InHand cipherCount s c codec :=
  { h.toSound with
    get := hget
    others := fun c' codec' _ hc' => h.claims c' codec' hc' }

theorem InHand.good (h : InHand cipherCount s c codec) (hclaims : codec.Claims) :
    Good cipherCount s :=
  { h.toSound with
    claims := by
      intro c' codec' hc'
      by_cases hc : c' = c
      · rw [hc, h.get] at hc'
        exact Option.some_inj.mp hc' ▸ hclaims
      · exact h.others c' codec' hc hc' }

/-- A codec that is found after the one at `c` was changed. -/
theorem get_set_cases {h : Heap (Codec ℕ)} (hget : h.get c = some codec) {c' : ℕ} {k : Codec ℕ}
    (hk : (h.set c codec').get c' = some k) :
    (c' = c ∧ k = codec') ∨ (c' ≠ c ∧ h.get c' = some k) := by
  by_cases hc : c' = c
  · rw [hc, Heap.get_set_self hget] at hk
    exact Or.inl ⟨hc, (Option.some_inj.mp hk).symm⟩
  · rw [Heap.get_set_of_ne hc] at hk
    exact Or.inr ⟨hc, hk⟩

/-- **A function of one codec**, if it keeps what the codec owns and leaves the rest alone. -/
theorem InHand.onCodec (h : InHand cipherCount s c codec) {α : Type}
    (op : Codec ℕ → Heap ℕ → Option (α × Codec ℕ × Heap ℕ)) {r : α} {ciphers : Heap ℕ}
    (hop : op codec s.ciphers = some (r, codec', ciphers)) (hown : codec'.Owns cipherCount ciphers)
    (hframe : Codec.Frame s.ciphers codec ciphers codec') :
    ∃ s', s.onCodec c op = some (r, s') ∧ InHand cipherCount s' c codec' ∧ s'.files = s.files := by
  -- a cipher of another codec
  have hother : ∀ c' k a, c' ≠ c → s.codecs.get c' = some k → k.Holds a → ¬ codec'.Holds a ∧
      ∀ t, s.ciphers.get a = some t → ciphers.get a = some t := by
    intro c' k a hc hk ha
    have hnot : ¬ codec.Holds a := fun hca => hc (h.apart c' c k codec a hk h.get ha hca)
    obtain ⟨t, ht⟩ := (h.owns c' k hk).live ha
    exact ⟨(hframe a t ht hnot).2, fun t' ht' => (hframe a t' ht' hnot).1⟩
  refine ⟨{ s with ciphers := ciphers, codecs := s.codecs.set c codec' }, ?_, ?_, rfl⟩
  · rw [CodecState.onCodec, h.get, Option.bind_eq_bind, Option.bind_some, hop]
    rfl
  refine ⟨⟨fun c' k hk => ?_, fun c₁ c₂ k₁ k₂ a hk₁ hk₂ ha₁ ha₂ => ?_, fun g c' hg => ?_,
    h.filesApart⟩, Heap.get_set_self h.get codec', fun c' k hc hk => ?_⟩
  · rcases get_set_cases h.get hk with ⟨rfl, rfl⟩ | ⟨hc, hk⟩
    · exact hown
    · have hold := h.owns c' k hk
      exact ⟨fun a ha => ⟨(hother c' k a hc hk (Or.inl ha)).2 _ (hold.read a ha).1,
          (hold.read a ha).2⟩,
        fun a ha => ⟨(hother c' k a hc hk (Or.inr ha)).2 _ (hold.write a ha).1,
          (hold.write a ha).2⟩, hold.apart⟩
  · rcases get_set_cases h.get hk₁ with ⟨hc₁, rfl⟩ | ⟨hc₁, hold₁⟩
    · rcases get_set_cases h.get hk₂ with ⟨hc₂, -⟩ | ⟨hc₂, hold₂⟩
      · rw [hc₁, hc₂]
      · exact absurd ha₁ (hother c₂ k₂ a hc₂ hold₂ ha₂).1
    · rcases get_set_cases h.get hk₂ with ⟨hc₂, rfl⟩ | ⟨hc₂, hold₂⟩
      · exact absurd ha₂ (hother c₁ k₁ a hc₁ hold₁ ha₁).1
      · exact h.apart c₁ c₂ k₁ k₂ a hold₁ hold₂ ha₁ ha₂
  · obtain ⟨k, hk⟩ := h.alive g c' hg
    by_cases hc : c' = c
    · exact ⟨codec', by rw [hc]; exact Heap.get_set_self h.get codec'⟩
    · exact ⟨k, by rw [Heap.get_set_of_ne hc]; exact hk⟩
  · rw [Heap.get_set_of_ne hc] at hk
    exact h.others c' k hc hk

/-- A field of a codec that is none of the slots is set. -/
theorem InHand.modifyCodec (h : InHand cipherCount s c codec) {g : Codec ℕ → Codec ℕ}
    (hread : (g codec).readCipher = codec.readCipher)
    (hreadType : (g codec).readCipherType = codec.readCipherType)
    (hwrite : (g codec).writeCipher = codec.writeCipher)
    (hwriteType : (g codec).writeCipherType = codec.writeCipherType) :
    ∃ s', s.modifyCodec c g = some s' ∧ InHand cipherCount s' c (g codec) ∧ s'.files = s.files := by
  have hown := h.owns c codec h.get
  have hown' : (g codec).Owns cipherCount s.ciphers := by
    refine ⟨?_, ?_, ?_⟩
    · rw [hread, hreadType]
      exact hown.read
    · rw [hwrite, hwriteType]
      exact hown.write
    · rw [hread, hwrite]
      exact hown.apart
  have hframe : Codec.Frame s.ciphers codec s.ciphers (g codec) := by
    intro a t ha hn
    refine ⟨ha, fun hc => hn ?_⟩
    rw [Codec.Holds, hread, hwrite] at hc
    exact hc
  obtain ⟨s', hs', hhand, hfiles⟩ :=
    h.onCodec (fun codec h => some ((), g codec, h)) rfl hown' hframe
  refine ⟨s', ?_, hhand, hfiles⟩
  rw [CodecState.modifyCodec, hs']
  rfl

/-- The write cipher of a codec is asked. -/
theorem Sound.askWriteCipher (h : Sound cipherCount s) (hget : s.codecs.get c = some codec) :
    s.askWriteCipher cipherCount c = some () := by
  rw [CodecState.askWriteCipher, hget, Option.bind_eq_bind, Option.bind_some,
    askWriteCipher_spec (h.owns c codec hget)]

/-- A new codec. -/
theorem Good.allocCodec (h : Good cipherCount s) :
    InHand cipherCount { s with codecs := s.codecs.alloc sqlite3mcCodecInit } s.codecs.next
        sqlite3mcCodecInit ∧ s.Unattached s.codecs.next := by
  have hcases : ∀ c' k, (s.codecs.alloc sqlite3mcCodecInit).get c' = some k →
      (c' = s.codecs.next ∧ k = sqlite3mcCodecInit) ∨
        (c' ≠ s.codecs.next ∧ s.codecs.get c' = some k) := by
    intro c' k hk
    by_cases hc : c' = s.codecs.next
    · rw [hc, Heap.get_alloc_self] at hk
      exact Or.inl ⟨hc, (Option.some_inj.mp hk).symm⟩
    · rw [Heap.get_alloc_of_ne hc] at hk
      exact Or.inr ⟨hc, hk⟩
  have hholds : ∀ a, ¬ Codec.Holds (sqlite3mcCodecInit : Codec ℕ) a := by
    rintro a (ha | ha) <;> cases ha
  refine ⟨⟨⟨fun c' k hk => ?_, fun c₁ c₂ k₁ k₂ a hk₁ hk₂ ha₁ ha₂ => ?_, fun g c' hg => ?_,
    h.filesApart⟩, Heap.get_alloc_self _ _, fun c' k hc hk => ?_⟩, fun g hg => ?_⟩
  · rcases hcases c' k hk with ⟨-, rfl⟩ | ⟨-, hk⟩
    · exact ⟨fun a ha => (by cases ha), fun a ha => (by cases ha), fun a ha => (by cases ha)⟩
    · exact h.owns c' k hk
  · rcases hcases c₁ k₁ hk₁ with ⟨-, rfl⟩ | ⟨-, hk₁⟩
    · exact absurd ha₁ (hholds a)
    · rcases hcases c₂ k₂ hk₂ with ⟨-, rfl⟩ | ⟨-, hk₂⟩
      · exact absurd ha₂ (hholds a)
      · exact h.apart c₁ c₂ k₁ k₂ a hk₁ hk₂ ha₁ ha₂
  · obtain ⟨k, hk⟩ := h.alive g c' hg
    exact ⟨k, Heap.get_alloc hk _⟩
  · rw [Heap.get_alloc_of_ne hc] at hk
    exact h.claims c' k hk
  · obtain ⟨k, hk⟩ := h.alive g _ hg
    rw [Heap.get_next] at hk
    cases hk

/-- **A codec that no file has is freed.** -/
theorem InHand.free (h : InHand cipherCount s c codec) (hfree : s.Unattached c) :
    ∃ s', s.sqlite3mcCodecFree cipherCount (some c) = some s' ∧ Good cipherCount s' ∧
      s'.files = s.files ∧ ∀ c', c' ≠ c → s'.codecs.get c' = s.codecs.get c' := by
  obtain ⟨ciphers, hterm, hkeep⟩ := sqlite3mcCodecTerm_spec (h.owns c codec h.get)
  refine ⟨{ s with ciphers := ciphers, codecs := s.codecs.free c }, ?_, ?_, rfl,
    fun c' hc => Heap.get_free_of_ne hc⟩
  · rw [CodecState.sqlite3mcCodecFree, h.get, Option.bind_eq_bind, Option.bind_some, hterm]
    rfl
  have hcases : ∀ c' k, (s.codecs.free c).get c' = some k → c' ≠ c ∧ s.codecs.get c' = some k := by
    intro c' k hk
    by_cases hc : c' = c
    · rw [hc, Heap.get_free_self] at hk
      cases hk
    · rw [Heap.get_free_of_ne hc] at hk
      exact ⟨hc, hk⟩
  have hother : ∀ c' k a, c' ≠ c → s.codecs.get c' = some k → k.Holds a →
      ciphers.get a = s.ciphers.get a := fun c' k a hc hk ha =>
    hkeep a fun hca => hc (h.apart c' c k codec a hk h.get ha hca)
  refine ⟨⟨fun c' k hk => ?_, fun c₁ c₂ k₁ k₂ a hk₁ hk₂ => ?_, fun g c' hg => ?_, h.filesApart⟩,
    fun c' k hk => ?_⟩
  · obtain ⟨hc, hk⟩ := hcases c' k hk
    have hold := h.owns c' k hk
    exact ⟨
      fun a ha => ⟨(hother c' k a hc hk (Or.inl ha)).trans (hold.read a ha).1,
        (hold.read a ha).2⟩,
      fun a ha => ⟨(hother c' k a hc hk (Or.inr ha)).trans (hold.write a ha).1,
        (hold.write a ha).2⟩,
      hold.apart⟩
  · exact h.apart c₁ c₂ k₁ k₂ a (hcases c₁ k₁ hk₁).2 (hcases c₂ k₂ hk₂).2
  · obtain ⟨k, hk⟩ := h.alive g c' hg
    refine ⟨k, ?_⟩
    have hc : c' ≠ c := fun hc => hfree g (hc ▸ hg)
    change (s.codecs.free c).get c' = some k
    rw [Heap.get_free_of_ne hc, hk]
  · obtain ⟨hc, hk⟩ := hcases c' k hk
    exact h.others c' k hc hk

/-! ### The codec of a file -/

/-- A file loses its codec, or is closed, before the codec is freed. -/
theorem Good.clearFile (h : Good cipherCount s) (f : ℕ) {v : Option (Option ℕ)}
    (hv : ∀ c, v ≠ some (some c)) :
    Good cipherCount { s with files := Function.update s.files f v } := by
  have hfiles : ∀ g c', Function.update s.files f v g = some (some c') →
      g ≠ f ∧ s.files g = some (some c') := by
    intro g c' hg
    by_cases hgf : g = f
    · rw [hgf, Function.update_self] at hg
      exact absurd hg (hv c')
    · rw [Function.update_of_ne hgf] at hg
      exact ⟨hgf, hg⟩
  exact ⟨⟨h.owns, h.apart, fun g c' hg => h.alive g c' (hfiles g c' hg).2,
    fun g g' c' hg hg' => h.filesApart g g' c' (hfiles g c' hg).2 (hfiles g' c' hg').2⟩, h.claims⟩

/-- The codec that a file had is freed. -/
theorem Good.freeFile (h : Good cipherCount s) {v : Option (Option ℕ)}
    (hv : ∀ c, v ≠ some (some c)) {prev : Option ℕ} (hprev : s.files f = some prev) :
    ∃ s', sqlite3mcCodecFree cipherCount { s with files := Function.update s.files f v } prev =
        some s' ∧ Good cipherCount s' := by
  have hclear := h.clearFile f hv
  rcases prev with _ | p
  · exact ⟨_, rfl, hclear⟩
  obtain ⟨k, hk⟩ := h.alive f p hprev
  have hfree : Unattached { s with files := Function.update s.files f v } p := by
    intro g hg
    by_cases hgf : g = f
    · have hg' : Function.update s.files f v f = some (some p) := hgf ▸ hg
      rw [Function.update_self] at hg'
      exact hv p hg'
    · have hg' : Function.update s.files f v g = some (some p) := hg
      rw [Function.update_of_ne hgf] at hg'
      exact hgf (h.filesApart g f p hg' hprev)
  obtain ⟨s', hs', hgood, -⟩ := (hclear.inHand hk).free hfree
  exact ⟨s', hs', hgood⟩

/-- **A file loses its codec.** -/
theorem Good.setCodec_none (h : Good cipherCount s) (f : ℕ) :
    ∃ s', s.sqlite3mcSetCodec cipherCount f none = some s' ∧ Good cipherCount s' := by
  rcases hf : s.files f with _ | prev
  · refine ⟨s, ?_, h⟩
    rw [CodecState.sqlite3mcSetCodec, hf]
    rfl
  obtain ⟨s', hs', hgood⟩ := h.freeFile (v := some none) (fun c hc => by cases hc) hf
  refine ⟨s', ?_, hgood⟩
  rw [CodecState.sqlite3mcSetCodec, hf]
  rcases prev with _ | p
  · exact hs'
  · obtain ⟨k, hk⟩ := h.alive f p hf
    dsimp only [Option.none_or]
    rw [hk, Option.bind_some]
    exact hs'

/-- **A file gets a codec** that no file has. Without such a file the codec is freed. -/
theorem Good.setCodec_some (h : Good cipherCount s) (hget : s.codecs.get c = some codec)
    (hfree : s.Unattached c) (f : ℕ) :
    ∃ s', s.sqlite3mcSetCodec cipherCount f (some c) = some s' ∧ Good cipherCount s' ∧
      (s.files f ≠ none → s'.codecs.get c = some codec) := by
  rcases hf : s.files f with _ | prev
  · obtain ⟨s', hs', hgood, -⟩ := (h.inHand hget).free hfree
    refine ⟨s', ?_, hgood, fun hne => absurd rfl hne⟩
    rw [CodecState.sqlite3mcSetCodec, hf, hs']
  -- the file has the new codec, and no file has the old one
  have hfiles : ∀ g c', Function.update s.files f (some (some c)) g = some (some c') →
      (g = f ∧ c' = c) ∨ (g ≠ f ∧ c' ≠ c ∧ s.files g = some (some c')) := by
    intro g c' hg
    by_cases hgf : g = f
    · rw [hgf, Function.update_self, Option.some_inj, Option.some_inj] at hg
      exact Or.inl ⟨hgf, hg.symm⟩
    · rw [Function.update_of_ne hgf] at hg
      exact Or.inr ⟨hgf, fun hc => hfree g (hc ▸ hg), hg⟩
  have hset : Good cipherCount { s with files := Function.update s.files f (some (some c)) } := by
    refine ⟨⟨h.owns, h.apart, fun g c' hg => ?_, fun g g' c' hg hg' => ?_⟩, h.claims⟩
    · rcases hfiles g c' hg with ⟨-, rfl⟩ | ⟨-, -, hg⟩
      · exact ⟨codec, hget⟩
      · exact h.alive g c' hg
    · rcases hfiles g c' hg with ⟨rfl, hc⟩ | ⟨-, hc, hg⟩
      · rcases hfiles g' c' hg' with ⟨rfl, -⟩ | ⟨-, hc', -⟩
        · rfl
        · exact absurd hc hc'
      · rcases hfiles g' c' hg' with ⟨-, hc'⟩ | ⟨-, -, hg'⟩
        · exact absurd hc' hc
        · exact h.filesApart g g' c' hg hg'
  rw [CodecState.sqlite3mcSetCodec, hf]
  dsimp only [Option.some_or]
  rw [hget, Option.bind_some]
  rcases prev with _ | p
  · exact ⟨_, rfl, hset, fun _ => hget⟩
  obtain ⟨k, hk⟩ := h.alive f p hf
  have hpc : p ≠ c := fun hpc => hfree f (hpc ▸ hf)
  have hprev : Unattached { s with files := Function.update s.files f (some (some c)) } p := by
    intro g hg
    rcases hfiles g p hg with ⟨-, hc⟩ | ⟨hgf, -, hg⟩
    · exact hpc hc
    · exact hgf (h.filesApart g f p hg hf)
  obtain ⟨s', hs', hgood, -, hkeep⟩ := (hset.inHand hk).free hprev
  exact ⟨s', hs', hgood, fun _ => (hkeep c (Ne.symm hpc)).trans hget⟩

/-- A page goes through the codec of a file. -/
theorem Good.sqlite3mcCodec (h : Good cipherCount s) (f : ℕ) (mode : CodecMode) :
    s.sqlite3mcCodec cipherCount f mode = some () := by
  rw [CodecState.sqlite3mcCodec, sqlite3mcGetCodec]
  rcases hf : s.files f with _ | _ | c
  · rfl
  · rfl
  · obtain ⟨k, hk⟩ := h.alive f c hf
    have huse := sqlite3mcCodec_spec (h.owns c k hk) (h.claims c k hk) mode
    simp only [Option.join_some, hk, Option.bind_eq_bind, Option.bind_some, huse]

theorem Good.rewritePages (h : Good cipherCount s) (f : ℕ) (pages : List CodecMode) :
    s.rewritePages cipherCount f pages = some () := by
  induction pages with
  | nil => rfl
  | cons mode modes ih =>
    rw [CodecState.rewritePages, h.sqlite3mcCodec, Option.bind_eq_bind, Option.bind_some, ih]

/-! ### The end of a rekey -/

/-- What the end of a rekey with result `rc` needs: the cipher that is copied is there, and the copy
is granted or needs no memory. -/
def LeavesWith (codec : Codec ℕ) (rc : ResultCode) (copyGranted : Bool) : Prop :=
  if rc = .ok then
    codec.hasWriteCipher = true → codec.writeCipher ≠ none ∧
      (copyGranted = true ∨
        (codec.readCipher ≠ none ∧ codec.readCipherType = codec.writeCipherType))
  else
    codec.hasReadCipher = true → codec.readCipher ≠ none ∧
      (codec.hasWriteCipher = true → copyGranted = true ∨
        (codec.writeCipher ≠ none ∧ codec.writeCipherType = codec.readCipherType))

/-- A codec that is not encrypted claims nothing. -/
theorem InHand.notEncrypted (h : InHand cipherCount s c codec) :
    ∃ s', s.modifyCodec c (fun codec => { codec with isEncrypted := false }) = some s' ∧
      Good cipherCount s' ∧ s'.files = s.files ∧ ∃ k, s'.codecs.get c = some k := by
  obtain ⟨s', hs', hhand, hfiles⟩ := h.modifyCodec
    (g := fun codec => { codec with isEncrypted := false }) rfl rfl rfl rfl
  exact ⟨s', hs', hhand.good fun henc => (by cases henc), hfiles, _, hhand.get⟩

/-- **The read cipher becomes the write cipher.** -/
theorem InHand.readWithWriteCipher (h : InHand cipherCount s c codec) {copyGranted : Bool}
    (hleave : LeavesWith codec .ok copyGranted) :
    ∃ s', s.readWithWriteCipher cipherCount c copyGranted = some s' ∧ Good cipherCount s' ∧
      s'.files = s.files ∧ ∃ k, s'.codecs.get c = some k := by
  rw [CodecState.readWithWriteCipher, h.get, Option.bind_eq_bind, Option.bind_some]
  rw [LeavesWith, if_pos rfl] at hleave
  by_cases hhas : codec.hasWriteCipher = true
  · obtain ⟨hwrite, hgranted⟩ := hleave hhas
    obtain ⟨b, hb⟩ := Option.ne_none_iff_exists'.mp hwrite
    obtain ⟨rc, cipher, ciphers, hcopy, hown, hframe, hsome⟩ :=
      sqlite3mcCopyCipher_read (h.owns c codec h.get) hb copyGranted
    obtain ⟨s₁, hs₁, hhand₁, hfiles₁⟩ := h.onCodec (fun codec h =>
      CodecPtr.sqlite3mcCopyCipher cipherCount false codec h copyGranted) hcopy hown hframe
    obtain ⟨s₂, hs₂, hhand₂, hfiles₂⟩ := hhand₁.modifyCodec
      (g := fun codec => { codec with hasReadCipher := true }) rfl rfl rfl rfl
    refine ⟨s₂, ?_, hhand₂.good fun _ => ⟨fun _ => hsome hgranted, fun _ => hwrite⟩,
      hfiles₂.trans hfiles₁, _, hhand₂.get⟩
    rw [if_pos hhas, hs₁, Option.bind_eq_bind, Option.bind_some]
    dsimp only
    rw [hs₂, Option.bind_eq_bind, Option.bind_some, hhand₂.askWriteCipher hhand₂.get]
    rfl
  · rw [if_neg hhas]
    exact h.notEncrypted

/-- **The write cipher becomes the read cipher again.** -/
theorem InHand.writeWithReadCipher (h : InHand cipherCount s c codec) {rc : ResultCode}
    (hrc : rc ≠ .ok) {copyGranted : Bool} (hleave : LeavesWith codec rc copyGranted) :
    ∃ s', s.writeWithReadCipher cipherCount c copyGranted = some s' ∧ Good cipherCount s' ∧
      s'.files = s.files ∧ ∃ k, s'.codecs.get c = some k := by
  rw [CodecState.writeWithReadCipher, h.get, Option.bind_eq_bind, Option.bind_some]
  rw [LeavesWith, if_neg hrc] at hleave
  by_cases hhas : codec.hasReadCipher = true
  · obtain ⟨hread, hgranted⟩ := hleave hhas
    obtain ⟨b, hb⟩ := Option.ne_none_iff_exists'.mp hread
    obtain ⟨rc', cipher, ciphers, hcopy, -, hown, hframe, hsome⟩ :=
      sqlite3mcCopyCipher_write (h.owns c codec h.get) hb copyGranted
    obtain ⟨s₁, hs₁, hhand₁, hfiles₁⟩ := h.onCodec (fun codec h =>
      CodecPtr.sqlite3mcCopyCipher cipherCount true codec h copyGranted) hcopy hown hframe
    refine ⟨s₁, ?_, hhand₁.good fun _ => ⟨fun _ => hread, fun hw => hsome (hgranted hw)⟩, hfiles₁,
      _, hhand₁.get⟩
    rw [if_pos hhas, hs₁]
    rfl
  · rw [if_neg hhas]
    exact h.notEncrypted

/-- **The end of a rekey** leaves a good state. -/
theorem InHand.leaveRekey (h : InHand cipherCount s c codec) (f : ℕ) (rc : ResultCode)
    (copyGranted : Bool) (hleave : LeavesWith codec rc copyGranted) :
    ∃ s', s.leaveRekey cipherCount f c rc copyGranted = some (rc, s') ∧ Good cipherCount s' := by
  obtain ⟨s₁, hs₁, hgood, -, k, hk⟩ : ∃ s₁,
      (if rc = .ok then s.readWithWriteCipher cipherCount c copyGranted
        else s.writeWithReadCipher cipherCount c copyGranted) = some s₁ ∧ Good cipherCount s₁ ∧
      s₁.files = s.files ∧ ∃ k, s₁.codecs.get c = some k := by
    by_cases hrc : rc = .ok
    · subst hrc
      rw [if_pos rfl]
      exact h.readWithWriteCipher hleave
    · rw [if_neg hrc]
      exact h.writeWithReadCipher hrc hleave
  rw [CodecState.leaveRekey, hs₁, Option.bind_eq_bind, Option.bind_some, hk, Option.bind_eq_bind,
    Option.bind_some]
  by_cases henc : k.isEncrypted = true
  · exact ⟨s₁, by rw [if_pos henc]; rfl, hgood⟩
  · obtain ⟨s₂, hs₂, hgood₂⟩ := hgood.setCodec_none f
    refine ⟨s₂, ?_, hgood₂⟩
    rw [if_neg henc, hs₂]
    rfl

/-! ### The operations -/

/-- **A file is closed.** -/
theorem Good.mcIoClose (h : Good cipherCount s) (f : ℕ) :
    ∃ s', s.mcIoClose cipherCount f = some s' ∧ Good cipherCount s' := by
  rw [CodecState.mcIoClose]
  rcases hf : s.files f with _ | prev
  · exact ⟨s, rfl, h⟩
  · exact h.freeFile (fun c hc => by cases hc) hf

/-- **A file is opened.** -/
theorem Good.mcVfsOpen (h : Good cipherCount s) (f : ℕ) : Good cipherCount (s.mcVfsOpen f) := by
  rw [CodecState.mcVfsOpen]
  rcases s.files f with _ | codec
  · exact h.clearFile f fun c hc => by cases hc
  · exact h

/-- A complete codec is given to the file. -/
theorem InHand.attachCodec (h : InHand cipherCount s c codec) (hclaims : codec.Claims)
    (hfree : s.Unattached c) (f : ℕ) :
    ∃ s', s.attachCodec cipherCount f c = some s' ∧ Good cipherCount s' := by
  obtain ⟨s', hs', hgood, -⟩ := (h.good hclaims).setCodec_some h.get hfree f
  refine ⟨s', ?_, hgood⟩
  rw [CodecState.attachCodec, h.askWriteCipher h.get, Option.bind_eq_bind, Option.bind_some, hs']

/-- The end of an attach: a complete codec goes to the file, another one is freed. -/
theorem InHand.finishAttach (h : InHand cipherCount s c codec) {rc : ResultCode}
    (hclaims : rc = .ok → codec.Claims) (hfree : s.Unattached c) (f : ℕ) :
    ∃ s', (if rc = .ok then (s.attachCodec cipherCount f c).bind fun s => some (rc, s)
        else (s.sqlite3mcCodecFree cipherCount (some c)).bind fun s => some (rc, s)) =
      some (rc, s') ∧ Good cipherCount s' := by
  by_cases hrc : rc = .ok
  · obtain ⟨s', hs', hgood⟩ := h.attachCodec (hclaims hrc) hfree f
    exact ⟨s', by rw [if_pos hrc, hs', Option.bind_some], hgood⟩
  · obtain ⟨s', hs', hgood, -⟩ := h.free hfree
    exact ⟨s', by rw [if_neg hrc, hs', Option.bind_some], hgood⟩

/-- The number of the pending cipher is that of a registered one, or is not used. -/
def AttachSafe (cipherCount : ℕ) (call : AttachCall) : Prop :=
  ∀ cipherType, call.codecGranted = true → call.source = .key cipherType true →
    cipherType ≤ cipherCount

/-- **`sqlite3mcCodecAttach`.** -/
theorem Good.sqlite3mcCodecAttach (h : Good cipherCount s) (f : ℕ) {call : AttachCall}
    (hsafe : AttachSafe cipherCount call) :
    ∃ rc s', s.sqlite3mcCodecAttach cipherCount f call = some (rc, s') ∧ Good cipherCount s' := by
  unfold CodecState.sqlite3mcCodecAttach
  by_cases hgranted : call.codecGranted = true
  swap
  · refine ⟨.nomem, s, ?_, h⟩
    rw [if_pos (by simpa using hgranted)]
  rw [if_neg (by simpa using hgranted)]
  obtain ⟨hhand, hfree⟩ := h.allocCodec
  obtain ⟨s₀, hs₀, hgood₀, -⟩ := hhand.free hfree
  rcases hkey : call.source with ⟨cipherType, _ | _⟩ | main | _ | _
  · exact ⟨.error, s₀, by simp only [hs₀]; rfl, hgood₀⟩
  · obtain ⟨rc, codec', ciphers, hsetup, hown, hframe, hclaims⟩ :=
      sqlite3mcCodecSetup_spec (h := s.ciphers) (hsafe cipherType hgranted hkey) call.readGranted
        call.writeGranted
    obtain ⟨s₁, hs₁, hhand₁, hfiles₁⟩ := hhand.onCodec (fun codec h =>
      CodecPtr.sqlite3mcCodecSetup cipherCount codec h cipherType call.readGranted
        call.writeGranted) hsetup hown hframe
    obtain ⟨s₂, hs₂, hgood₂⟩ := hhand₁.finishAttach hclaims (fun g hg => hfree g (hfiles₁ ▸ hg)) f
    refine ⟨rc, s₂, ?_, hgood₂⟩
    simp only [Bool.not_true, Bool.false_eq_true, if_false, hs₁, Option.bind_eq_bind,
      Option.bind_some]
    exact hs₂
  · rcases hmain : s.sqlite3mcGetCodec main with _ | mainCodec
    · refine ⟨.ok, s₀, ?_, hgood₀⟩
      simp only [sqlite3mcGetCodec] at hmain ⊢
      simp only [hmain, hs₀]
      rfl
    obtain ⟨other, hother⟩ := h.alive main mainCodec (Option.join_eq_some_iff.mp hmain)
    have hother' : (s.codecs.alloc sqlite3mcCodecInit).get mainCodec = some other :=
      Heap.get_alloc hother _
    by_cases henc : other.isEncrypted = true
    · obtain ⟨rc, codec', ciphers, hcopy, hown, hframe, hclaims⟩ :=
        sqlite3mcCodecCopy_spec (h.owns mainCodec other hother) (h.claims mainCodec other hother)
          henc call.readGranted call.writeGranted
      obtain ⟨s₁, hs₁, hhand₁, hfiles₁⟩ := hhand.onCodec (fun codec h =>
        CodecPtr.sqlite3mcCodecCopy cipherCount codec other h call.readGranted call.writeGranted)
        hcopy hown hframe
      obtain ⟨s₂, hs₂, hgood₂⟩ := hhand₁.finishAttach hclaims (fun g hg => hfree g (hfiles₁ ▸ hg)) f
      refine ⟨rc, s₂, ?_, hgood₂⟩
      simp only [sqlite3mcGetCodec] at hmain ⊢
      simp only [hmain, hother', henc, if_true, hs₁, Option.bind_eq_bind, Option.bind_some]
      exact hs₂
    · refine ⟨.ok, s₀, ?_, hgood₀⟩
      simp only [sqlite3mcGetCodec] at hmain ⊢
      simp only [hmain, hother', henc, hs₀, Option.bind_eq_bind, Option.bind_some]
      rfl
  · exact ⟨.ok, s₀, by simp only [hs₀]; rfl, hgood₀⟩
  · obtain ⟨s₁, hs₁, hgood₁⟩ := hgood₀.setCodec_none f
    refine ⟨.ok, s₁, ?_, hgood₁⟩
    simp only [hs₀, hs₁, if_true, Option.bind_eq_bind, Option.bind_some]
    rfl

/-! ### Rekeying -/

/-- The copy at the end of a rekey is granted, or needs no memory: there is a cipher of the right
type to copy over. -/
def CopyFits (codec : Codec ℕ) (run : RekeyRun) : Prop :=
  run.copyGranted = true ∨
    if run.cipherType ≤ 0 then
      codec.hasWriteCipher = true → codec.writeCipherType = codec.readCipherType
    else run.writeGranted = true ∧ codec.readCipher ≠ none ∧
      run.cipherType.toNat = codec.readCipherType

/-- What the encryption of a plaintext database needs: a registered cipher, a file in the list, and
memory for the copy. -/
def EncryptSafe (cipherCount : ℕ) (s : CodecState) (f : ℕ) (run : RekeyRun) : Prop :=
  run.hasKey = true → run.usesWal = false → run.codecGranted = true →
    run.cipherType ≤ cipherCount ∧
      (0 < run.cipherType → run.writeGranted = true → run.pageSizeAgrees = true →
        s.files f ≠ none ∧ (run.rewritten = .ok → run.copyGranted = true))

/-- What the change of a key needs. -/
def ReencryptSafe (cipherCount : ℕ) (codec : Codec ℕ) (run : RekeyRun) : Prop :=
  run.hasKey = true → codec.isEncrypted = true →
    run.cipherType ≤ cipherCount ∧ CopyFits codec run

/-- What a rekey needs. -/
def RekeySafe (cipherCount : ℕ) (s : CodecState) (f : ℕ) (run : RekeyRun) : Prop :=
  match s.sqlite3mcGetCodec f with
  | none => EncryptSafe cipherCount s f run
  | some c => ∀ codec, s.codecs.get c = some codec → ReencryptSafe cipherCount codec run

/-- The pages are rewritten with a codec that has what it claims, and the rekey ends. -/
theorem InHand.rewrite (h : InHand cipherCount s c codec) (hclaims : codec.Claims) (f : ℕ)
    (pages : List CodecMode) {rc : ResultCode} {copyGranted : Bool}
    (hleave : LeavesWith codec rc copyGranted) :
    ∃ s', (do
        s.rewritePages cipherCount f pages
        s.leaveRekey cipherCount f c rc copyGranted) = some (rc, s') ∧ Good cipherCount s' := by
  rw [(h.good hclaims).rewritePages, Option.bind_eq_bind, Option.bind_some]
  exact h.leaveRekey f _ _ hleave

/-- **Decryption.** -/
theorem Good.rekeyDecrypt (h : Good cipherCount s) (hget : s.codecs.get c = some codec)
    (henc : codec.isEncrypted = true) (f : ℕ) (run : RekeyRun) :
    ∃ rc s', s.rekeyDecrypt cipherCount f c run = some (rc, s') ∧ Good cipherCount s' := by
  obtain ⟨hread, -⟩ := h.claims c codec hget henc
  obtain ⟨s₁, hs₁, hhand, -⟩ := (h.inHand hget).modifyCodec
    (g := fun codec => { codec with hasWriteCipher := false }) rfl rfl rfl rfl
  -- nothing is copied: there is no write cipher in the end
  have hleave : LeavesWith { codec with hasWriteCipher := false } run.rewritten
      run.copyGranted := by
    rw [LeavesWith]
    split
    · exact fun hw => by cases hw
    · exact fun hr => ⟨hread hr, fun hw => by cases hw⟩
  obtain ⟨s₂, hs₂, hgood⟩ :=
    hhand.rewrite (fun _ => ⟨hread, fun hw => by cases hw⟩) f run.pages hleave
  refine ⟨run.rewritten, s₂, ?_, hgood⟩
  rw [CodecState.rekeyDecrypt, hs₁, Option.bind_eq_bind, Option.bind_some, hs₂]

/-- **The change of a key.** -/
theorem Good.rekeyReencrypt (h : Good cipherCount s) (hget : s.codecs.get c = some codec)
    (henc : codec.isEncrypted = true) (f : ℕ) {run : RekeyRun}
    (htype : run.cipherType ≤ cipherCount) (hfits : CopyFits codec run) :
    ∃ rc s', s.rekeyReencrypt cipherCount f c run = some (rc, s') ∧ Good cipherCount s' := by
  obtain ⟨hread, hwrite⟩ := h.claims c codec hget henc
  have hhand := h.inHand hget
  by_cases hpos : run.cipherType ≤ 0
  · -- no cipher is pending: the write cipher is the old one
    rw [CopyFits, if_pos hpos] at hfits
    have hleave : LeavesWith codec .error run.copyGranted := by
      rw [LeavesWith, if_neg (by decide)]
      refine fun hr => ⟨hread hr, fun hw => hfits.imp_right fun htypes => ⟨hwrite hw, htypes hw⟩⟩
    obtain ⟨s₁, hs₁, hhand₁, -⟩ := hhand.onCodec (fun codec h =>
      CodecPtr.sqlite3mcSetupWriteCipher cipherCount codec h run.cipherType run.writeGranted)
      (sqlite3mcSetupWriteCipher_unknownType hpos run.writeGranted) (h.owns c codec hget)
      (Codec.Frame.refl _ _)
    obtain ⟨s₂, hs₂, hgood⟩ := hhand₁.leaveRekey f _ _ hleave
    refine ⟨.error, s₂, ?_, hgood⟩
    rw [CodecState.rekeyReencrypt, hs₁, Option.bind_eq_bind, Option.bind_some]
    dsimp only
    rw [if_neg (by decide), hs₂]
  · rw [CopyFits, if_neg hpos] at hfits
    obtain ⟨cipher, ciphers, hsetup, hsome, hown, hframe⟩ :=
      sqlite3mcSetupWriteCipher_spec (h.owns c codec hget) (by omega) htype run.writeGranted
    obtain ⟨s₁, hs₁, hhand₁, -⟩ := hhand.onCodec (fun codec h =>
      CodecPtr.sqlite3mcSetupWriteCipher cipherCount codec h run.cipherType run.writeGranted)
      hsetup hown hframe
    rw [CodecState.rekeyReencrypt, hs₁, Option.bind_eq_bind, Option.bind_some]
    dsimp only
    cases hgranted : run.writeGranted with
    | false =>
      -- the write cipher is gone, and its place is filled again
      have hcopy : run.copyGranted = true := hfits.resolve_right fun hf => by
        rw [hgranted] at hf
        cases hf.1
      obtain ⟨s₂, hs₂, hgood⟩ := hhand₁.leaveRekey f .nomem run.copyGranted
        (by
          rw [LeavesWith, if_neg (by decide)]
          exact fun hr => ⟨hread hr, fun _ => Or.inl hcopy⟩)
      exact ⟨.nomem, s₂, hs₂, hgood⟩
    | true =>
      have hcipher : cipher ≠ none := fun hnone => by
        rw [hnone, hgranted] at hsome
        cases hsome
      have hfits' : run.copyGranted = true ∨
          (codec.readCipher ≠ none ∧ run.cipherType.toNat = codec.readCipherType) :=
        hfits.imp_right And.right
      have hleave : ∀ rc, LeavesWith { codec with
          isEncrypted := true
          hasWriteCipher := true
          writeCipherType := run.cipherType.toNat
          writeCipher := cipher } rc run.copyGranted := by
        intro rc
        rw [LeavesWith]
        split
        · exact fun _ => ⟨hcipher, hfits'.imp_right fun hf => ⟨hf.1, hf.2.symm⟩⟩
        · exact fun hr => ⟨hread hr, fun _ => hfits'.imp_right fun hf => ⟨hcipher, hf.2⟩⟩
      rw [if_pos rfl, if_pos rfl, hhand₁.askWriteCipher hhand₁.get, Option.bind_eq_bind,
        Option.bind_some]
      by_cases hpage : run.pageSizeAgrees = true
      · obtain ⟨s₂, hs₂, hgood⟩ :=
          hhand₁.rewrite (fun _ => ⟨hread, fun _ => hcipher⟩) f run.pages (hleave run.rewritten)
        exact ⟨run.rewritten, s₂, by rw [if_pos hpage]; exact hs₂, hgood⟩
      · obtain ⟨s₂, hs₂, hgood⟩ := hhand₁.leaveRekey f _ _ (hleave .error)
        exact ⟨.error, s₂, by rw [if_neg hpage]; exact hs₂, hgood⟩

/-- The codec of a plaintext database gets to the file, and is complete in the end. -/
theorem InHand.encryptWith (h : InHand cipherCount s c codec) (hwrite : codec.writeCipher ≠ none)
    (hread : codec.hasReadCipher = false) (hfree : s.Unattached c) {run : RekeyRun}
    (hsafe : run.pageSizeAgrees = true →
      s.files f ≠ none ∧ (run.rewritten = .ok → run.copyGranted = true)) :
    ∃ rc s', s.encryptWith cipherCount f c run = some (rc, s') ∧ Good cipherCount s' := by
  rw [CodecState.encryptWith, h.askWriteCipher h.get, Option.bind_eq_bind, Option.bind_some]
  by_cases hpage : run.pageSizeAgrees = true
  · obtain ⟨hfile, hcopy⟩ := hsafe hpage
    obtain ⟨s₁, hs₁, hhand₁, hfiles⟩ := h.modifyCodec
      (g := fun codec => { codec with hasReadCipher := false }) rfl rfl rfl rfl
    have hgood₁ : Good cipherCount s₁ :=
      hhand₁.good fun _ => ⟨fun hr => (by cases hr), fun _ => hwrite⟩
    obtain ⟨s₂, hs₂, hgood₂, hget₂⟩ :=
      hgood₁.setCodec_some hhand₁.get (fun g hg => hfree g (hfiles ▸ hg)) f
    have hget := hget₂ (hfiles ▸ hfile)
    have hleave : LeavesWith { codec with hasReadCipher := false } run.rewritten
        run.copyGranted := by
      rw [LeavesWith]
      split
      · exact fun _ => ⟨hwrite, Or.inl (hcopy ‹_›)⟩
      · exact fun hr => by cases hr
    obtain ⟨s₃, hs₃, hgood₃⟩ :=
      (hgood₂.inHand hget).rewrite (hgood₂.claims _ _ hget) f run.pages hleave
    refine ⟨run.rewritten, s₃, ?_, hgood₃⟩
    rw [if_pos hpage, hs₁, Option.bind_eq_bind, Option.bind_some,
      hhand₁.askWriteCipher hhand₁.get, Option.bind_some, hs₂, Option.bind_some,
      hgood₂.askWriteCipher hget, Option.bind_some, ← hs₃]
    rfl
  · -- the codec did not get to the file, and it is not encrypted in the end
    obtain ⟨s₁, hs₁, hgood⟩ := h.leaveRekey f .error run.copyGranted (by
      rw [LeavesWith, if_neg (by decide), hread]
      exact fun hr => by cases hr)
    exact ⟨.error, s₁, by rw [if_neg hpage, hs₁], hgood⟩

/-- **Encryption.** -/
theorem Good.rekeyEncrypt (h : Good cipherCount s) {run : RekeyRun} (hkey : run.hasKey = true)
    (hwal : run.usesWal = false) (hsafe : EncryptSafe cipherCount s f run) :
    ∃ rc s', s.rekeyEncrypt cipherCount f run = some (rc, s') ∧ Good cipherCount s' := by
  rw [CodecState.rekeyEncrypt]
  cases hgranted : run.codecGranted with
  | false => exact ⟨.nomem, s, rfl, h⟩
  | true =>
    obtain ⟨htype, hsafe⟩ := hsafe hkey hwal hgranted
    obtain ⟨hhand, hfree⟩ := h.allocCodec
    rw [if_neg (by decide)]
    dsimp only
    by_cases hpos : run.cipherType ≤ 0
    · obtain ⟨s₁, hs₁, hhand₁, hfiles₁⟩ := hhand.onCodec (fun codec h =>
        CodecPtr.sqlite3mcSetupWriteCipher cipherCount codec h run.cipherType run.writeGranted)
        (sqlite3mcSetupWriteCipher_unknownType hpos run.writeGranted) (hhand.owns _ _ hhand.get)
        (Codec.Frame.refl _ _)
      obtain ⟨s₂, hs₂, hgood, -⟩ := hhand₁.free fun g hg => hfree g (hfiles₁ ▸ hg)
      refine ⟨.error, s₂, ?_, hgood⟩
      rw [hs₁, Option.bind_eq_bind, Option.bind_some]
      dsimp only
      rw [if_neg (by decide), hs₂]
      rfl
    obtain ⟨cipher, ciphers, hsetup, hsome, hown, hframe⟩ := sqlite3mcSetupWriteCipher_spec
      (hhand.owns _ _ hhand.get) (by omega) htype run.writeGranted
    obtain ⟨s₁, hs₁, hhand₁, hfiles₁⟩ := hhand.onCodec (fun codec h =>
      CodecPtr.sqlite3mcSetupWriteCipher cipherCount codec h run.cipherType run.writeGranted)
      hsetup hown hframe
    have hfree₁ : s₁.Unattached s.codecs.next := fun g hg => hfree g (hfiles₁ ▸ hg)
    rw [hs₁, Option.bind_eq_bind, Option.bind_some]
    dsimp only
    cases hwrite : run.writeGranted with
    | false =>
      obtain ⟨s₂, hs₂, hgood, -⟩ := hhand₁.free hfree₁
      exact ⟨.nomem, s₂, by rw [if_neg (by decide), if_neg (by decide), hs₂]; rfl, hgood⟩
    | true =>
      have hcipher : cipher ≠ none := fun hnone => by
        rw [hnone, hwrite] at hsome
        cases hsome
      rw [if_pos rfl, if_pos rfl]
      refine hhand₁.encryptWith hcipher rfl hfree₁ fun hpage => ?_
      rw [hfiles₁]
      exact hsafe (by omega) hwrite hpage

/-- **`sqlite3_rekey_v2`.** -/
theorem Good.sqlite3RekeyV2 (h : Good cipherCount s) {run : RekeyRun}
    (hsafe : RekeySafe cipherCount s f run) :
    ∃ rc s', s.sqlite3RekeyV2 cipherCount f run = some (rc, s') ∧ Good cipherCount s' := by
  rw [CodecState.sqlite3RekeyV2]
  rw [RekeySafe] at hsafe
  rcases hcodec : s.sqlite3mcGetCodec f with _ | c
  · rw [hcodec] at hsafe
    dsimp only at hsafe ⊢
    cases hkey : run.hasKey with
    | false => exact ⟨.ok, s, rfl, h⟩
    | true =>
      cases hwal : run.usesWal with
      | true => exact ⟨.error, s, rfl, h⟩
      | false => exact h.rekeyEncrypt hkey hwal hsafe
  · rw [hcodec] at hsafe
    dsimp only at hsafe ⊢
    obtain ⟨codec, hget⟩ := h.alive f c (Option.join_eq_some_iff.mp hcodec)
    have hsafe' := hsafe codec hget
    rw [hget, Option.bind_eq_bind, Option.bind_some]
    by_cases henc : codec.isEncrypted = true
    · rw [if_pos henc]
      by_cases hkey : run.hasKey = true
      · obtain ⟨htype, hfits⟩ := hsafe' hkey henc
        rw [if_pos hkey]
        exact h.rekeyReencrypt hget henc f htype hfits
      · rw [if_neg hkey]
        exact h.rekeyDecrypt hget henc f run
    · rw [if_neg henc]
      cases run.hasKey with
      | false => exact ⟨.ok, s, rfl, h⟩
      | true => exact ⟨.error, s, rfl, h⟩

/-! ### Runs -/

/-- What an operation needs. -/
def Safe (cipherCount : ℕ) (s : CodecState) : CodecEvent → Prop
  | .attach _ call => AttachSafe cipherCount call
  | .rekey f run => RekeySafe cipherCount s f run
  | _ => True

/-- **The step lemma.** A safe operation does not fail and leaves a good state. -/
theorem Good.exec (h : Good cipherCount s) {e : CodecEvent} (hsafe : Safe cipherCount s e) :
    ∃ s', s.exec cipherCount e = some s' ∧ Good cipherCount s' := by
  cases e with
  | openFile f => exact ⟨s.mcVfsOpen f, rfl, h.mcVfsOpen f⟩
  | closeFile f => exact h.mcIoClose f
  | attach f call =>
    obtain ⟨rc, s', hs', hgood⟩ := h.sqlite3mcCodecAttach f hsafe
    exact ⟨s', by rw [CodecState.exec, hs', Option.map_some], hgood⟩
  | rekey f run =>
    obtain ⟨rc, s', hs', hgood⟩ := h.sqlite3RekeyV2 hsafe
    exact ⟨s', by rw [CodecState.exec, hs', Option.map_some], hgood⟩
  | page f mode =>
    exact ⟨s, by rw [CodecState.exec, h.sqlite3mcCodec, Option.map_some], h⟩

theorem good_start (cipherCount : ℕ) : Good cipherCount start :=
  ⟨⟨fun c codec hc => (by cases hc), fun c c' codec codec' a hc => (by cases hc),
    fun f c hf => (by cases hf), fun f f' c hf => (by cases hf)⟩, fun c codec hc => (by cases hc)⟩

/-- **Codecs keep what they claim.** After every run of safe operations each encrypted codec has the
ciphers that it claims, of registered types, no cipher is shared, and no safe operation touches
anything that was freed. -/
theorem codec_invariant {events : List CodecEvent}
    (hrun : GuardedRun (fun s e t => s.exec cipherCount e = some t) (Safe cipherCount) start events
      s) :
    Good cipherCount s ∧ ∀ e, Safe cipherCount s e → (s.exec cipherCount e).isSome = true := by
  have hgood : Good cipherCount s :=
    hrun.invariant (Good cipherCount)
      (fun {s t e} hgood hsafe hstep => by
        obtain ⟨s', hs', hgood'⟩ := hgood.exec hsafe
        exact Option.some_inj.mp (hs'.symm.trans hstep) ▸ hgood')
      (good_start cipherCount)
  refine ⟨hgood, fun e hsafe => ?_⟩
  obtain ⟨s', hs', -⟩ := hgood.exec hsafe
  rw [hs']
  rfl

end Steps

/-- ChaCha20 with everything granted but, possibly, the copy at the end. -/
def rekeyChaCha20 (copyGranted : Bool) : RekeyRun :=
  ⟨true, false, 3, true, true, copyGranted, true, [.load, .journal, .database], .ok⟩

/-- A plaintext database is encrypted. -/
theorem codec_invariant_chacha20 :
    ∃ s, GuardedRun (fun s e t => s.exec 7 e = some t) (Safe 7) start
        [.openFile 0, .rekey 0 (rekeyChaCha20 true)] s ∧
      Good 7 s ∧ ∀ e, Safe 7 s e → (s.exec 7 e).isSome = true := by
  have hsafe : Safe 7 (start.mcVfsOpen 0) (.rekey 0 (rekeyChaCha20 true)) :=
    fun _ _ _ => ⟨by decide, fun _ _ _ => ⟨by simp [mcVfsOpen, start], fun _ => rfl⟩⟩
  obtain ⟨s, hrun⟩ : ∃ s, GuardedRun (fun s e t => s.exec 7 e = some t) (Safe 7) start
      [.openFile 0, .rekey 0 (rekeyChaCha20 true)] s :=
    ⟨_, GuardedRun.cons trivial rfl (GuardedRun.cons hsafe rfl (GuardedRun.nil _))⟩
  exact ⟨s, hrun, codec_invariant hrun⟩

/-- **An encrypted codec without a read cipher.** The copy at the end of the encryption is refused,
the rekey succeeds, and the next page that is loaded follows a null pointer. -/
theorem rekey_copyRefused :
    ∃ s, Run (fun s e t => s.exec 7 e = some t) start
        [.openFile 0, .rekey 0 (rekeyChaCha20 false)] s ∧
      ¬ Good 7 s ∧ s.exec 7 (.page 0 .load) = none := by
  refine ⟨_, Run.cons rfl (Run.cons rfl (Run.nil _)), fun hgood => ?_, rfl⟩
  exact (hgood.claims 0 _ rfl rfl).1 rfl rfl

end CodecState

end MultipleCiphers
