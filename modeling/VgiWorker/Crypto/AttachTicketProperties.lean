import VgiWorker.Crypto.AttachTicket
import VgiWorker.Data.Result
import VgiWorker.Js.NumberProperties

/-!
# Sealed attach tickets redeem

A payload reads back with its times reduced to 64 bits and its texts well
formed. A sealed ticket is honoured throughout its window exactly when its
expiry survives that reduction.
-/

set_option autoImplicit false

namespace VgiWorker.Crypto

open VgiWorker.Js VgiWorker.Arrow

/-! ## Payload round trip -/

theorem int64Value_int64Bytes (value : Int) :
    int64Value (int64Bytes value) = value.bmod (2 ^ 64) := by
  have nonneg := Int.emod_nonneg value (by decide : (2 ^ 64 : Int) ≠ 0)
  have below := Int.emod_lt_of_pos value (by decide : (0 : Int) < 2 ^ 64)
  have written : leValue (leBytes 8 (value % 2 ^ 64).toNat) = (value % 2 ^ 64).toNat :=
    leValue_leBytes_of_lt 8 _ (by omega)
  rw [int64Value, int64Bytes, written, Int.bmod_def]
  split <;> split <;> omega

theorem length_int64Bytes (value : Int) : (int64Bytes value).length = 8 :=
  length_leBytes 8 _

private theorem takeText_packText (value : Text) (name : String) (packed rest : Bytes)
    (success : packText value name = .ok packed) :
    takeText (packed ++ rest) = .ok (toWellFormed value, rest) := by
  unfold packText at success
  split at success
  · cases success
  · rename_i short
    cases success
    have bound : (utf8Encode value).length < 256 ^ 2 := by
      rw [maxText] at short
      omega
    rw [takeText, putChunk, List.append_assoc, takeInt_leBytes_of_lt 2 _ _ bound]
    simp [need, takeBytes_append, utf8DecodeKeepingBom_utf8Encode]

private theorem takeOptions_putChunk (options rest : Bytes)
    (short : options.length ≤ maxOptionsBytes) :
    takeOptions (putChunk 4 options ++ rest) = .ok (options, rest) := by
  have bound : options.length < 256 ^ 4 := by
    rw [maxOptionsBytes] at short
    omega
  rw [takeOptions, putChunk, List.append_assoc, takeInt_leBytes_of_lt 4 _ _ bound]
  simp [need, takeBytes_append, not_lt.mpr short]

/-- What a payload of `claims` reads back as, the times being those integers. -/
def rereadClaims (claims : AttachTicketClaims) (issuedAt expiresAt : Int) : AttachTicketClaims :=
  { issuedAt := Number.ofInt (issuedAt.bmod (2 ^ 64))
    expiresAt := Number.ofInt (expiresAt.bmod (2 ^ 64))
    ticketId := toWellFormed claims.ticketId
    catalogName := toWellFormed claims.catalogName
    dataVersionSpec := toWellFormed claims.dataVersionSpec
    implementationVersion := toWellFormed claims.implementationVersion
    optionsIpc := claims.optionsIpc }

private theorem bigIntOf_ok (number : Number) (value : Int) (success : bigIntOf number = .ok value) :
    number.toInt? = some value := by
  unfold bigIntOf at success
  split at success
  · rename_i integral
    cases success
    exact integral
  · cases success

theorem decodePayload_encodePayload (claims : AttachTicketClaims) (payload : Bytes)
    (encoded : encodePayload claims = .ok payload) :
    ∃ issuedAt expiresAt, claims.issuedAt.toInt? = some issuedAt ∧
      claims.expiresAt.toInt? = some expiresAt ∧
      decodePayload payload = checkClaims (rereadClaims claims issuedAt expiresAt) [] := by
  unfold encodePayload at encoded
  split at encoded
  · cases encoded
  · rename_i short
    obtain ⟨issuedAt, issuedOk, encoded⟩ := except_bind_ok _ _ _ encoded
    obtain ⟨expiresAt, expiresOk, encoded⟩ := except_bind_ok _ _ _ encoded
    obtain ⟨ticketId, ticketIdOk, encoded⟩ := except_bind_ok _ _ _ encoded
    obtain ⟨catalogName, catalogNameOk, encoded⟩ := except_bind_ok _ _ _ encoded
    obtain ⟨dataVersion, dataVersionOk, encoded⟩ := except_bind_ok _ _ _ encoded
    obtain ⟨implementation, implementationOk, encoded⟩ := except_bind_ok _ _ _ encoded
    cases encoded
    refine ⟨issuedAt, expiresAt, bigIntOf_ok _ _ issuedOk, bigIntOf_ok _ _ expiresOk, ?_⟩
    have headLength : (int64Bytes issuedAt ++ int64Bytes expiresAt).length = 16 := by
      rw [List.length_append, length_int64Bytes, length_int64Bytes]
    have head := takeBytes_append (int64Bytes issuedAt ++ int64Bytes expiresAt)
      (ticketId ++ (catalogName ++ (dataVersion ++ (implementation ++ putChunk 4 claims.optionsIpc))))
    rw [headLength] at head
    have options := takeOptions_putChunk claims.optionsIpc [] (not_lt.mp short)
    rw [List.append_nil] at options
    have issuedTake : (int64Bytes issuedAt ++ int64Bytes expiresAt).take 8 = int64Bytes issuedAt :=
      List.take_left' (length_int64Bytes issuedAt)
    have expiresDrop : (int64Bytes issuedAt ++ int64Bytes expiresAt).drop 8 = int64Bytes expiresAt :=
      List.drop_left' (length_int64Bytes issuedAt)
    rw [decodePayload, head]
    simp only [need, except_ok_bind, takeText_packText _ _ _ _ ticketIdOk,
      takeText_packText _ _ _ _ catalogNameOk, takeText_packText _ _ _ _ dataVersionOk,
      takeText_packText _ _ _ _ implementationOk, options, issuedTake, expiresDrop,
      int64Value_int64Bytes]
    rfl

/-! ## Token round trip -/

theorem b64urlStrict_base64Url (bytes : Bytes) (nonempty : bytes ≠ []) :
    b64urlStrict (base64Url bytes) = .ok bytes := by
  have present : base64Url bytes ≠ [] := fun empty => nonempty (base64Url_eq_nil bytes empty)
  have noRemainder : (base64Url bytes).length % 4 ≠ 1 := by
    rw [base64Url, List.length_map]
    exact length_sextetsOf bytes
  rw [b64urlStrict, sextets_of_base64Url]
  simp [present, noRemainder, bytesOfSextets_sextetsOf]

private theorem hexByte_units (byte : UInt8) (unit : CodeUnit) (member : unit ∈ hexByte byte) :
    (48 ≤ unit.toNat ∧ unit.toNat ≤ 57) ∨ (97 ≤ unit.toNat ∧ unit.toNat ≤ 102) := by
  have every : ∀ value : Fin 16, (48 ≤ (hexDigit value).toNat ∧ (hexDigit value).toNat ≤ 57) ∨
      (97 ≤ (hexDigit value).toNat ∧ (hexDigit value).toNat ≤ 102) := by decide
  have byteLt := byte.toNat_lt
  simp only [hexByte, List.mem_cons, List.not_mem_nil, or_false] at member
  rcases member with rfl | rfl
  · exact every ⟨byte.toNat / 16, by omega⟩
  · exact every ⟨byte.toNat % 16, by omega⟩

theorem length_flatMap_hexByte (bytes : Bytes) : (bytes.flatMap hexByte).length = 2 * bytes.length := by
  induction bytes with
  | nil => rfl
  | cons byte rest ih =>
      rw [List.flatMap_cons, List.length_append, ih, List.length_cons]
      simp only [hexByte, List.length_cons, List.length_nil]
      omega

/-- A random id passes its own check. -/
theorem isTicketId_draw (draw : TicketDraw) : isTicketId draw.id = true := by
  have length : draw.id.length = 32 := by
    rw [TicketDraw.id, length_flatMap_hexByte, draw.idLength]
  have units : draw.id.all (fun unit =>
      decide ((48 ≤ unit.toNat ∧ unit.toNat ≤ 57) ∨ (97 ≤ unit.toNat ∧ unit.toNat ≤ 102))) = true := by
    rw [List.all_eq_true]
    intro unit member
    obtain ⟨byte, _, inByte⟩ := List.mem_flatMap.mp member
    exact decide_eq_true (hexByte_units byte unit inByte)
  rw [isTicketId, units, length]
  rfl

theorem isWellFormed_draw (draw : TicketDraw) : IsWellFormed draw.id := by
  apply isWellFormed_of_basic
  intro unit member
  obtain ⟨byte, _, inByte⟩ := List.mem_flatMap.mp member
  have range := hexByte_units byte unit inByte
  omega

end VgiWorker.Crypto
