import Fmp4Packager.Format.Box

/-!
# Descriptors with expandable sizes

A descriptor is a tag byte, a size in groups of seven bits and that many bytes.  A
size byte with its high bit set is followed by another one, so that a size may be
spelled with leading zero groups.
-/

namespace IsoBox

structure Descriptor where
  tag : UInt8
  payload : List UInt8
  deriving DecidableEq, Repr

/-- A size, continuing from the groups in `acc`. -/
def readLength (acc : ℕ) : List UInt8 → Option (ℕ × List UInt8)
  | [] => none
  | byte :: bytes =>
      if byte.toNat < 128 then some (acc * 128 + byte.toNat, bytes)
      else readLength (acc * 128 + byte.toNat % 128) bytes

def readDescriptor : List UInt8 → Option (Descriptor × List UInt8)
  | [] => none
  | tag :: bytes => do
      let (length, rest) ← readLength 0 bytes
      let (payload, rest) ← readBytes length rest
      some (⟨tag, payload⟩, rest)

def readDescriptorsAux : ℕ → List UInt8 → Option (List Descriptor)
  | _, [] => some []
  | 0, _ :: _ => none
  | fuel + 1, byte :: bytes => do
      let (descriptor, rest) ← readDescriptor (byte :: bytes)
      let others ← readDescriptorsAux fuel rest
      some (descriptor :: others)

/-- The descriptors that tile `bytes`. -/
def readDescriptors (bytes : List UInt8) : Option (List Descriptor) :=
  readDescriptorsAux bytes.length bytes

/-- A descriptor whose size is spelled in four bytes, three of them zero groups. -/
def Descriptor.encode (d : Descriptor) : List UInt8 :=
  [d.tag, 0x80, 0x80, 0x80, UInt8.ofNat d.payload.length] ++ d.payload

@[simp] theorem Descriptor.length_encode (d : Descriptor) :
    d.encode.length = 5 + d.payload.length := by
  simp [Descriptor.encode]
  omega

theorem readLength_zeros (bytes : List UInt8) :
    readLength 0 (0x80 :: 0x80 :: 0x80 :: bytes) = readLength 0 bytes := by
  simp [readLength]

theorem readDescriptor_encode (d : Descriptor) (hsize : d.payload.length < 128)
    (rest : List UInt8) : readDescriptor (d.encode ++ rest) = some (d, rest) := by
  have hlast : (UInt8.ofNat d.payload.length).toNat = d.payload.length := by
    rw [UInt8.toNat_ofNat', Nat.mod_eq_of_lt (by omega)]
  have hlength : readLength 0
      (0x80 :: 0x80 :: 0x80 :: UInt8.ofNat d.payload.length :: (d.payload ++ rest)) =
      some (d.payload.length, d.payload ++ rest) := by
    rw [readLength_zeros, readLength, hlast, if_pos hsize, Nat.zero_mul, Nat.zero_add]
  simp only [Descriptor.encode, List.cons_append, List.nil_append, readDescriptor, hlength,
    Option.bind_eq_bind, Option.bind_some, readBytes_append rest rfl]

theorem readDescriptorsAux_flatMap (fuel : ℕ) {ds : List Descriptor} (hfuel : ds.length ≤ fuel)
    (hsize : ∀ d ∈ ds, d.payload.length < 128) :
    readDescriptorsAux fuel (ds.flatMap Descriptor.encode) = some ds := by
  induction ds generalizing fuel with
  | nil => cases fuel <;> rfl
  | cons d ds ih =>
      rcases fuel with _ | fuel
      · simp at hfuel
      · have hd := readDescriptor_encode d (hsize d List.mem_cons_self)
          (ds.flatMap Descriptor.encode)
        have hds := ih fuel (by simpa using hfuel) fun d hd ↦ hsize d (List.mem_cons_of_mem _ hd)
        rw [List.flatMap_cons]
        rw [Descriptor.encode, List.cons_append, List.cons_append] at hd ⊢
        simp only [readDescriptorsAux, hd, Option.bind_eq_bind, Option.bind_some, hds]

theorem readDescriptors_flatMap (ds : List Descriptor)
    (hsize : ∀ d ∈ ds, d.payload.length < 128) :
    readDescriptors (ds.flatMap Descriptor.encode) = some ds := by
  apply readDescriptorsAux_flatMap _ _ hsize
  clear hsize
  induction ds with
  | nil => simp
  | cons d ds ih =>
      simp only [List.length_cons, List.flatMap_cons, List.length_append,
        Descriptor.length_encode]
      omega

/-- The payloads of the descriptors that tile `bytes`, if their tags are as given. -/
def payloadsTagged (tags : List UInt8) (bytes : List UInt8) : Option (List (List UInt8)) := do
  let ds ← readDescriptors bytes
  if ds.map Descriptor.tag = tags then some (ds.map Descriptor.payload) else none

theorem payloadsTagged_flatMap (ds : List Descriptor)
    (hsize : ∀ d ∈ ds, d.payload.length < 128) :
    payloadsTagged (ds.map Descriptor.tag) (ds.flatMap Descriptor.encode) =
      some (ds.map Descriptor.payload) := by
  rw [payloadsTagged, readDescriptors_flatMap ds hsize, Option.bind_eq_bind, Option.bind_some,
    if_pos rfl]

theorem payloadsTagged_encode (d : Descriptor) (hsize : d.payload.length < 128) :
    payloadsTagged [d.tag] d.encode = some [d.payload] := by
  have hread := payloadsTagged_flatMap [d] (by simpa using hsize)
  rwa [List.map_singleton, List.map_singleton, List.flatMap_singleton] at hread

theorem eq_nil_of_readDescriptorsAux {fuel : ℕ} {bytes : List UInt8}
    (h : readDescriptorsAux fuel bytes = some []) : bytes = [] := by
  cases bytes with
  | nil => rfl
  | cons byte bytes =>
      cases fuel with
      | zero => cases h
      | succ fuel =>
          rw [readDescriptorsAux] at h
          obtain ⟨_, -, h⟩ := Option.bind_eq_some_iff.mp h
          obtain ⟨_, -, h⟩ := Option.bind_eq_some_iff.mp h
          cases h

/-- The first of the descriptors that tile `bytes`; alone, it fills them. -/
theorem readDescriptors_eq_cons {byte : UInt8} {bytes : List UInt8} {d : Descriptor}
    {ds : List Descriptor} (h : readDescriptors (byte :: bytes) = some (d :: ds)) :
    d.tag = byte ∧ ∃ rest, readDescriptor (byte :: bytes) = some (d, rest) ∧
      (ds = [] → rest = []) := by
  rw [readDescriptors, List.length_cons, readDescriptorsAux] at h
  obtain ⟨⟨first, rest⟩, hfirst, h⟩ := Option.bind_eq_some_iff.mp h
  obtain ⟨others, hothers, h⟩ := Option.bind_eq_some_iff.mp h
  obtain ⟨rfl, rfl⟩ := List.cons.inj (Option.some.inj h)
  refine ⟨?_, rest, hfirst, ?_⟩
  · rw [readDescriptor] at hfirst
    obtain ⟨⟨length, middle⟩, -, hfirst⟩ := Option.bind_eq_some_iff.mp hfirst
    obtain ⟨⟨payload, rest'⟩, -, hfirst⟩ := Option.bind_eq_some_iff.mp hfirst
    obtain ⟨rfl, -⟩ := Prod.mk.injEq .. ▸ Option.some.inj hfirst
    rfl
  · rintro rfl
    exact eq_nil_of_readDescriptorsAux hothers

/-- A descriptor with the given tag fills `bytes`. -/
theorem readDescriptor_of_payloadsTagged {byte tag : UInt8} {bytes payload : List UInt8}
    (h : payloadsTagged [tag] (byte :: bytes) = some [payload]) :
    readDescriptor (byte :: bytes) = some (⟨tag, payload⟩, []) := by
  obtain ⟨ds, hds, h⟩ := Option.bind_eq_some_iff.mp h
  obtain ⟨htags, hpayloads⟩ := Option.ite_none_right_eq_some.mp h
  obtain ⟨d, rfl, htag⟩ := List.map_eq_singleton_iff.mp htags
  obtain ⟨-, rest, hread, hrest⟩ := readDescriptors_eq_cons hds
  rw [hread, hrest rfl, ← htag]
  obtain ⟨hpayload, -⟩ := List.cons.inj (Option.some.inj hpayloads)
  rw [← hpayload]

theorem payloadsTagged_of_ne {byte tag : UInt8} {tags bytes : List UInt8} (hne : byte ≠ tag) :
    payloadsTagged (tag :: tags) (byte :: bytes) = none := by
  rw [Option.eq_none_iff_forall_ne_some]
  intro payloads h
  obtain ⟨ds, hds, h⟩ := Option.bind_eq_some_iff.mp h
  obtain ⟨htags, -⟩ := Option.ite_none_right_eq_some.mp h
  obtain ⟨d, others, rfl, htag, -⟩ := List.map_eq_cons_iff.mp htags
  exact hne ((readDescriptors_eq_cons hds).1.symm.trans htag)

end IsoBox
