import SourceTidy.Text.Bytes

/-!
# Bytes that are text

The UTF-8 form of a text has no broken stretch and is shown as that text.  The other way
round, bytes without a broken stretch are the UTF-8 form of the characters read.
-/

namespace SourceTidy
namespace Text

theorem bytes_cons (c : Char) (text : Text) :
    bytes (c :: text) = String.utf8EncodeChar c ++ bytes text :=
  List.flatMap_cons

theorem bytes_append (text other : Text) : bytes (text ++ other) = bytes text ++ bytes other :=
  List.flatMap_append

theorem toByteArray_eq (l : List UInt8) : l.toByteArray = ⟨l.toArray⟩ :=
  ByteArray.ext List.data_toByteArray

theorem utf8DecodeChar?_take (c : Char) (rest : List UInt8) :
    ByteArray.utf8DecodeChar? ⟨((String.utf8EncodeChar c ++ rest).take 4).toArray⟩ 0 = some c := by
  have hlength : (String.utf8EncodeChar c).length ≤ 4 := by
    rw [String.length_utf8EncodeChar]
    exact c.utf8Size_le_four
  rw [List.take_append, List.take_of_length_le hlength, ← toByteArray_eq, List.toByteArray_append]
  exact ByteArray.utf8DecodeChar?_utf8EncodeChar_append

/-- The bytes that belong to a stretch already read are passed over. -/
theorem stretches_length_append (front rest : List UInt8) :
    stretches front.length (front ++ rest) = stretches 0 rest := by
  induction front with
  | nil => rfl
  | cons b front ih => exact ih

theorem stretches_utf8EncodeChar_append (c : Char) (rest : List UInt8) :
    stretches 0 (String.utf8EncodeChar c ++ rest) = some c :: stretches 0 rest := by
  have hdecode := utf8DecodeChar?_take c rest
  have hlength := String.length_utf8EncodeChar c
  cases hbytes : String.utf8EncodeChar c with
  | nil =>
      rw [hbytes] at hlength
      exact absurd hlength.symm (Nat.ne_of_gt c.utf8Size_pos)
  | cons b front =>
      rw [hbytes, List.cons_append] at hdecode
      rw [hbytes, List.length_cons] at hlength
      rw [List.cons_append, stretches, hdecode]
      dsimp only
      rw [← hlength, Nat.add_sub_cancel, stretches_length_append]

theorem stretches_bytes (text : Text) : stretches 0 (bytes text) = text.map some := by
  induction text with
  | nil => rfl
  | cons c text ih => rw [bytes_cons, stretches_utf8EncodeChar_append, ih, List.map_cons]

@[simp] theorem shown_bytes (text : Text) : shown (bytes text) = text := by
  rw [shown, stretches_bytes, List.map_map]
  exact List.map_id text

theorem exists_utf8EncodeChar_append {bs : List UInt8} {c : Char}
    (h : ByteArray.utf8DecodeChar? ⟨(bs.take 4).toArray⟩ 0 = some c) :
    ∃ rest, bs = String.utf8EncodeChar c ++ rest := by
  rcases ByteArray.exists_of_utf8DecodeChar?_eq_some h with ⟨others, hothers⟩
  have htake : bs.take 4 = String.utf8EncodeChar c ++ others.data.toList := by
    have hdata := congrArg (fun array => array.data.toList) hothers
    simpa using hdata
  refine ⟨others.data.toList ++ bs.drop 4, ?_⟩
  rw [← List.append_assoc, ← htake, List.take_append_drop]

theorem eq_bytes_of_stretches {bs : List UInt8} {text : Text}
    (h : stretches 0 bs = text.map some) : bs = bytes text := by
  induction text generalizing bs with
  | nil =>
      cases bs with
      | nil => rfl
      | cons b rest =>
          rw [stretches] at h
          split at h <;> cases h
  | cons c text ih =>
      cases bs with
      | nil => cases h
      | cons b rest =>
          have hdecode :
              ByteArray.utf8DecodeChar? ⟨((b :: rest).take 4).toArray⟩ 0 = some c := by
            rw [stretches] at h
            split at h
            · next hfound =>
                rw [hfound]
                exact (List.cons.inj h).1
            · cases (List.cons.inj h).1
          rcases exists_utf8EncodeChar_append hdecode with ⟨others, hothers⟩
          rw [hothers, stretches_utf8EncodeChar_append] at h
          rw [hothers, bytes_cons, ih (List.cons.inj h).2]

theorem mapM_id_eq_some_iff {α : Type} {options : List (Option α)} {values : List α} :
    options.mapM id = some values ↔ options = values.map some := by
  induction options generalizing values with
  | nil => cases values <;> simp
  | cons value? options ih =>
      cases value? with
      | none => cases values <;> simp
      | some value =>
          cases values with
          | nil => simp [Option.bind_eq_some_iff]
          | cons first values => simpa [Option.bind_eq_some_iff, ih] using And.comm

/-- Bytes are read as a text if and only if they are its UTF-8 form. -/
theorem ofBytes?_eq_some_iff {bs : List UInt8} {text : Text} :
    ofBytes? bs = some text ↔ bs = bytes text := by
  rw [ofBytes?, mapM_id_eq_some_iff]
  constructor
  · exact eq_bytes_of_stretches
  · rintro rfl
    exact stretches_bytes text

theorem encode_eq (text : Text) : encode text = (bytes text).toByteArray := by
  rw [encode, String.toUTF8_eq_toByteArray, String.toByteArray_ofList]
  rfl

theorem decode?_eq_some_iff {array : ByteArray} {text : Text} :
    decode? array = some text ↔ array = encode text := by
  constructor
  · intro h
    exact (encode_of_decode? h).symm
  · rintro rfl
    exact decode?_encode text

/-- Names are read like the contents of files. -/
theorem ofBytes?_eq_decode? (bs : List UInt8) : ofBytes? bs = decode? bs.toByteArray := by
  apply Option.ext
  intro text
  rw [ofBytes?_eq_some_iff, decode?_eq_some_iff, encode_eq, List.toByteArray_inj]

end Text
end SourceTidy
