import OnekvmVnc.Lib.Json
import OnekvmVnc.SessionRequest

/-! The session request is one line, and that line is a JSON object with the given strings, whatever bytes they
    hold. -/

namespace OnekvmVnc

open Decoder Json

/-! ### Strings -/

theorem hex4_control : ∀ n : Fin 32, hex4 0x30 0x30 (hexDigits.getD (UInt8.ofNat n >>> 4).toNat 0)
    (hexDigits.getD (UInt8.ofNat n &&& 0x0f).toNat 0) = some n.val := by
  decide

theorem spells_jsonCharacter (c : UInt8) : Spells (jsonCharacter c) c := by
  unfold jsonCharacter
  split
  · rename_i hc
    exact hc ▸ spells_escape (by decide)
  · rename_i hquote
    split
    · rename_i hc
      exact hc ▸ spells_escape (by decide)
    · rename_i hescape
      iterate 5
        split
        · rename_i hc
          exact hc ▸ spells_escape (by decide)
      split
      · rename_i hcontrol
        have hlt : c.toNat < 32 := UInt8.lt_iff_toNat_lt.mp hcontrol
        have hhex := hex4_control ⟨c.toNat, hlt⟩
        dsimp only at hhex
        rw [UInt8.ofNat_toNat] at hhex
        have hspells := spells_hex hhex (by omega)
        rw [UInt8.ofNat_toNat] at hspells
        exact hspells
      · rename_i hcontrol
        exact spells_self hquote (UInt8.not_lt.mp hcontrol) hescape

/-- The rest of a string token. -/
def jsonBody (value : List UInt8) : List UInt8 := value.flatMap jsonCharacter ++ [0x22]

theorem reads_jsonBody (value : List UInt8) : Reads readStringBody (jsonBody value) value :=
  reads_spelled spells_jsonCharacter value

theorem printable_hex : ∀ n : Fin 32, Printable [hexDigits.getD (UInt8.ofNat n >>> 4).toNat 0,
    hexDigits.getD (UInt8.ofNat n &&& 0x0f).toNat 0] := by
  decide

/-- No control byte stands in the code of a character. -/
theorem printable_jsonCharacter (c : UInt8) : Printable (jsonCharacter c) := by
  unfold jsonCharacter
  iterate 7
    split
    · decide
  split
  · rename_i hcontrol
    have hlt : c.toNat < 32 := UInt8.lt_iff_toNat_lt.mp hcontrol
    have hhex := printable_hex ⟨c.toNat, hlt⟩
    dsimp only at hhex
    rw [UInt8.ofNat_toNat] at hhex
    exact Printable.append (by decide) hhex
  · rename_i hcontrol
    intro b hb
    rw [List.mem_singleton.mp hb]
    exact UInt8.not_lt.mp hcontrol

theorem printable_jsonBody (value : List UInt8) : Printable (jsonBody value) := by
  refine Printable.append (fun b hb => ?_) (.cons (by decide) nofun)
  obtain ⟨c, -, hc⟩ := List.mem_flatMap.mp hb
  exact printable_jsonCharacter c b hc

theorem printable_jsonString (value : List UInt8) : Printable (jsonString value) :=
  .cons (by decide) (printable_jsonBody value)

/-! ### Requests -/

/-- A member whose value is a string. -/
def stringField (key value : List UInt8) : Field :=
  { key, value := .string value, keyCode := jsonBody key, valueCode := jsonString value }

theorem reads_stringField (key value : List UInt8) : (stringField key value).Reads where
  key := reads_jsonBody key
  value := readsValue_string (reads_jsonBody value)

def versionField : Field :=
  { key := bytesOf "version", value := .number (bytesOf "1"), keyCode := jsonBody (bytesOf "version")
    valueCode := bytesOf "1" }

theorem reads_versionField : versionField.Reads where
  key := reads_jsonBody _
  value := readsValue_digit (b := 0x31) (by decide)

/-- The members behind the version. -/
def sessionFields (identity : ByteIdentity) (clientIp clientUser clientTransport codec : List UInt8) : List Field :=
  [stringField (bytesOf "extension_id") identity.extensionId, stringField (bytesOf "token") identity.token,
    stringField (bytesOf "video") (bytesOf "session"), stringField (bytesOf "codec") codec,
    stringField (bytesOf "client_ip") clientIp, stringField (bytesOf "client_transport") clientTransport] ++
    if clientUser = [] then [] else [stringField (bytesOf "client_user") clientUser]

variable (identity : ByteIdentity) (clientIp clientUser clientTransport codec : List UInt8)

theorem sessionJSON_eq : sessionJSON identity clientIp clientUser clientTransport codec =
    objectCode versionField (sessionFields identity clientIp clientUser clientTransport codec) ++ [0x0a] := by
  have hid : bytesOf "\x7b\"version\":1,\"extension_id\":" =
      0x7b :: (versionField.code ++ 0x2c :: 0x22 :: (jsonBody (bytesOf "extension_id") ++ [0x3a])) := by decide
  have htoken : bytesOf ",\"token\":" = 0x2c :: 0x22 :: (jsonBody (bytesOf "token") ++ [0x3a]) := by decide
  have hvideo : bytesOf ",\"video\":\"session\",\"codec\":" = 0x2c :: (stringField (bytesOf "video") (bytesOf "session")).code ++
      0x2c :: 0x22 :: (jsonBody (bytesOf "codec") ++ [0x3a]) := by decide
  have hip : bytesOf ",\"client_ip\":" = 0x2c :: 0x22 :: (jsonBody (bytesOf "client_ip") ++ [0x3a]) := by decide
  have htransport : bytesOf ",\"client_transport\":" =
      0x2c :: 0x22 :: (jsonBody (bytesOf "client_transport") ++ [0x3a]) := by decide
  have huser : bytesOf ",\"client_user\":" = 0x2c :: 0x22 :: (jsonBody (bytesOf "client_user") ++ [0x3a]) := by decide
  have hend : bytesOf "\x7d\n" = [0x7d, 0x0a] := by decide
  unfold sessionJSON sessionFields
  rw [hid, htoken, hvideo, hip, htransport, huser, hend]
  dsimp only
  by_cases hnone : clientUser = []
  · rw [if_neg (not_not.mpr hnone), if_pos hnone]
    simp [objectCode, moreCode, stringField, Field.code]
  · rw [if_pos hnone, if_neg hnone]
    simp [objectCode, moreCode, stringField, Field.code]

/-- What holds of the version and of all strings holds of every member. -/
theorem forall_sessionFields {P : Field → Prop} (version : P versionField)
    (string : ∀ key value, P (stringField key value)) :
    ∀ f ∈ versionField :: sessionFields identity clientIp clientUser clientTransport codec, P f := by
  refine List.forall_mem_cons.mpr ⟨version, List.forall_mem_append.mpr ⟨?_, ?_⟩⟩
  · simp only [List.forall_mem_cons, List.not_mem_nil, false_implies, implies_true, and_true]
    exact ⟨string _ _, string _ _, string _ _, string _ _, string _ _, string _ _⟩
  · split
    · exact nofun
    · exact List.forall_mem_singleton.mpr (string _ _)

/-- A string becomes one token that stands for it, and a request one line, with the object that holds the given
    strings. -/
theorem session_request_line :
    (∀ value : List UInt8, (∀ b ∈ jsonString value, 0x20 ≤ b) ∧ Reads readString (jsonString value) value) ∧
    ∀ (identity : ByteIdentity) (clientIp clientUser clientTransport codec : List UInt8), ∃ object,
      sessionJSON identity clientIp clientUser clientTransport codec = object ++ [0x0a] ∧ 0x0a ∉ object ∧
        parse object = some (.object ([(bytesOf "version", .number (bytesOf "1")),
          (bytesOf "extension_id", .string identity.extensionId), (bytesOf "token", .string identity.token),
          (bytesOf "video", .string (bytesOf "session")), (bytesOf "codec", .string codec),
          (bytesOf "client_ip", .string clientIp), (bytesOf "client_transport", .string clientTransport)] ++
            if clientUser = [] then [] else [(bytesOf "client_user", .string clientUser)])) := by
  refine ⟨fun value => ⟨printable_jsonString value, reads_string (reads_jsonBody value)⟩,
    fun identity clientIp clientUser clientTransport codec => ?_⟩
  refine ⟨_, sessionJSON_eq identity clientIp clientUser clientTransport codec, fun hnewline => ?_, ?_⟩
  · have hprintable := printable_objectCode (forall_sessionFields identity clientIp clientUser clientTransport codec
      ⟨printable_jsonBody _, by decide⟩ fun key value => ⟨printable_jsonBody key, printable_jsonString value⟩)
    exact absurd (hprintable 0x0a hnewline) (by decide)
  · rw [parse_object (forall_sessionFields identity clientIp clientUser clientTransport codec reads_versionField
      reads_stringField)]
    unfold sessionFields
    split <;> rfl

end OnekvmVnc
