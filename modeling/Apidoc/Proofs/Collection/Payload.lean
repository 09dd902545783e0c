import Apidoc.Collection.Archive
import Apidoc.Proofs.Flate.Stored
import Apidoc.Proofs.Text.Utf8

namespace Apidoc.Archive

theorem unpack_append {length : Bytes} (four : length.length = lengthBytes) (stream : Bytes) :
    unpack (length ++ stream) = ((Flate.inflate stream).mapError .stream).bind fun bytes =>
      (Text.Utf8.decode bytes).mapError .encoding := by
  have long : ¬(length ++ stream).length < lengthBytes := by
    rw [List.length_append, four]
    omega
  rw [unpack, if_neg long, List.drop_left' four]
  cases Flate.inflate stream <;> rfl

theorem unpack_of_inflate {length stream : Bytes} {s : Text} (four : length.length = lengthBytes)
    (compressed : Flate.inflate stream = .ok (Text.Utf8.encode s)) :
    unpack (length ++ stream) = .ok s := by
  rw [unpack_append four, compressed]
  simp only [Except.mapError, Except.bind, Text.Utf8.decode_encode]

/-- A payload with a stream of stored blocks is read with any bytes behind the stream. If the stream
is cut off, it is incomplete, and a payload without room for its length is too short. -/
theorem unpack_stored (z : Flate.StoredStream) {s : Text} (written : z.data = Text.Utf8.encode s)
    {length : Bytes} (four : length.length = 4) :
    (∀ trailing, unpack (length ++ (z.bytes ++ trailing)) = .ok s) ∧
      (∀ cut rest, z.bytes = cut ++ rest → rest ≠ [] →
        unpack (length ++ cut) = .error (.stream .truncated)) ∧
      ∀ payload : Bytes, payload.length < 4 →
        unpack payload = .error (.shortEntry payload.length) := by
  refine ⟨?_, ?_, ?_⟩
  · intro trailing
    exact unpack_of_inflate four (written ▸ z.inflate_bytes trailing)
  · intro cut rest split some
    rw [unpack_append four, z.inflate_cut split some]
    rfl
  · intro payload short
    exact if_pos short

def accentStream : Flate.StoredStream where
  method := 0x58
  flags := 0x09
  earlier := [⟨31, [0x61, 0xC3], by decide⟩, ⟨4, [], by decide⟩]
  last := ⟨0, [0xA9, 0xE2, 0x82, 0xAC], by decide⟩
  checked := by decide
  deflated := by decide
  window := by decide
  plain := by decide

theorem unpack_stored_accent :
    accentStream.data = Text.Utf8.encode "aé€".toList ∧ ([1, 2, 3, 4] : Bytes).length = 4 ∧
      (∀ trailing, unpack ([1, 2, 3, 4] ++ (accentStream.bytes ++ trailing)) =
        .ok "aé€".toList) ∧
      (∀ cut rest, accentStream.bytes = cut ++ rest → rest ≠ [] →
        unpack ([1, 2, 3, 4] ++ cut) = .error (.stream .truncated)) ∧
      ∀ payload : Bytes, payload.length < 4 →
        unpack payload = .error (.shortEntry payload.length) := by
  have written : accentStream.data = Text.Utf8.encode "aé€".toList := by decide +kernel
  exact ⟨written, rfl, unpack_stored accentStream written rfl⟩

end Apidoc.Archive
