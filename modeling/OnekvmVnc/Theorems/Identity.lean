import OnekvmVnc.Identity
import OnekvmVnc.Theorems.SessionRequest

/-! `SubscriptionJSON` writes its strings as they are. What `LoadIdentity` accepts needs no escape, so that a request is
    the JSON object that is meant, on one line. -/

namespace OnekvmVnc

open Decoder Json

/-! ### Strings that need no escape -/

/-- The string stands for itself in JSON. -/
def Plain (value : List UInt8) : Prop := ∀ b ∈ value, b ≠ 0x22 ∧ 0x20 ≤ b ∧ b ≠ 0x5c

instance : DecidablePred Plain := fun value => List.decidableBAll (fun b => b ≠ 0x22 ∧ 0x20 ≤ b ∧ b ≠ 0x5c) value

theorem Plain.reads {value : List UInt8} (h : Plain value) : Reads readStringBody (value ++ [0x22]) value := by
  intro rest
  change readStringBody _ = _
  induction value with
  | nil =>
    rw [List.nil_append, List.singleton_append, readStringBody.eq_def]
    exact if_pos rfl
  | cons b value ih =>
    obtain ⟨⟨hquote, hcontrol, hescape⟩, hrest⟩ := List.forall_mem_cons.mp h
    have hb : readStringBody (b :: (value ++ [0x22] ++ rest)) = after [b] (readStringBody (value ++ [0x22] ++ rest)) :=
      spells_self hquote hcontrol hescape (value ++ [0x22] ++ rest)
    rw [List.cons_append, List.cons_append, hb, ih hrest]
    rfl

theorem Plain.printable {value : List UInt8} (h : Plain value) : Printable (value ++ [0x22]) :=
  Printable.append (fun b hb => (h b hb).2.1) (.cons (by decide) nofun)

theorem plain_of_digit {b : UInt8} (h : OnekvmVnc.isDigit b = true) : b ≠ 0x22 ∧ 0x20 ≤ b ∧ b ≠ 0x5c := by
  simp only [OnekvmVnc.isDigit, Bool.and_eq_true, decide_eq_true_eq] at h
  exact ⟨by rintro rfl; exact absurd h.1 (by decide), UInt8.le_trans (by decide) h.1,
    by rintro rfl; exact absurd h.2 (by decide)⟩

theorem plain_of_letter {b lo hi : UInt8} (h : lo ≤ b ∧ b ≤ hi) (hlo : 0x23 ≤ lo) (hhi : hi < 0x5c ∨ 0x5c < lo) :
    b ≠ 0x22 ∧ 0x20 ≤ b ∧ b ≠ 0x5c := by
  refine ⟨?_, UInt8.le_trans (by decide) (UInt8.le_trans hlo h.1), ?_⟩
  · rintro rfl
    exact absurd (UInt8.le_trans hlo h.1) (by decide)
  · rintro rfl
    rcases hhi with hhi | hlo
    · exact UInt8.not_lt.mpr h.2 hhi
    · exact UInt8.not_lt.mpr h.1 hlo

theorem plain_of_idCharacter {b : UInt8} (h : isIdCharacter b = true) : b ≠ 0x22 ∧ 0x20 ≤ b ∧ b ≠ 0x5c := by
  simp only [isIdCharacter, Bool.or_eq_true, Bool.and_eq_true, decide_eq_true_eq] at h
  rcases h with hletter | hdigit
  · exact plain_of_letter hletter (by decide) (.inr (by decide))
  · exact plain_of_digit hdigit

theorem plain_of_xDigit {b : UInt8} (h : isXDigit b = true) : b ≠ 0x22 ∧ 0x20 ≤ b ∧ b ≠ 0x5c := by
  simp only [isXDigit, Bool.or_eq_true, Bool.and_eq_true, decide_eq_true_eq] at h
  rcases h with (hdigit | hsmall) | hcapital
  · exact plain_of_digit hdigit
  · exact plain_of_letter hsmall (by decide) (.inr (by decide))
  · exact plain_of_letter hcapital (by decide) (.inl (by decide))

theorem plain_of_matches {id : List UInt8} (h : matchesIdPattern id = true) : Plain id := by
  cases id with
  | nil => exact nofun
  | cons first rest =>
    simp only [matchesIdPattern, Bool.and_eq_true, List.all_eq_true, Bool.or_eq_true, decide_eq_true_eq] at h
    obtain ⟨⟨⟨hfirst, -⟩, -⟩, hrest⟩ := h
    refine List.forall_mem_cons.mpr ⟨plain_of_idCharacter hfirst, fun b hb => ?_⟩
    rcases hrest b hb with hid | rfl
    · exact plain_of_idCharacter hid
    · decide

/-! ### Identities -/

variable {id credentials : Option (List UInt8)} {file : List UInt8 → Option (List UInt8)} {identity : ByteIdentity}

/-- What `LoadIdentity` has checked. -/
structure Loaded (id credentials : Option (List UInt8)) (file : List UInt8 → Option (List UInt8))
    (identity : ByteIdentity) : Prop where
  id_eq : id = some identity.extensionId
  pattern : matchesIdPattern identity.extensionId = true
  credential : ∃ directory input, credentials = some directory ∧ directory ≠ [] ∧ file (tokenPath directory) = some input ∧
    identity.token = input.filter fun value => !isSpace value
  length : identity.token.length = 64
  digits : ∀ b ∈ identity.token, isXDigit b = true

theorem loadIdentity_eq_ok : loadIdentity id credentials file = .ok identity ↔ Loaded id credentials file identity := by
  constructor
  · intro h
    unfold loadIdentity at h
    split at h
    · rename_i id directory
      split at h
      · cases h
      · rename_i hempty
        push Not at hempty
        split at h
        · cases h
        · rename_i hpattern
          split at h
          · cases h
          · rename_i input hinput
            dsimp only at h
            split at h
            · cases h
            · rename_i hformat
              push Not at hformat
              cases h
              exact ⟨rfl, by simpa using hpattern, ⟨directory, input, rfl, hempty.2, hinput, rfl⟩, hformat.1,
                by simpa using hformat.2⟩
    · cases h
  · rintro ⟨rfl, hpattern, ⟨directory, input, rfl, hdirectory, hinput, htoken⟩, hlength, hdigits⟩
    have hne : identity.extensionId ≠ [] := by
      intro hnil
      rw [hnil] at hpattern
      cases hpattern
    have hall : identity.token.all isXDigit = true := List.all_eq_true.mpr hdigits
    simp only [loadIdentity, hne, hdirectory, or_self, if_false, hpattern, hinput, ← htoken, hlength, hall, ne_eq,
      not_true_eq_false, Bool.not_true, Bool.false_eq_true]

theorem Loaded.plain_id (h : Loaded id credentials file identity) : Plain identity.extensionId :=
  plain_of_matches h.pattern

theorem Loaded.plain_token (h : Loaded id credentials file identity) : Plain identity.token :=
  fun b hb => plain_of_xDigit (h.digits b hb)

/-! ### Requests -/

/-- A member whose value is a string that is written as it is. -/
def plainField (key value : List UInt8) : Field :=
  { key, value := .string value, keyCode := key ++ [0x22], valueCode := 0x22 :: (value ++ [0x22]) }

/-- A member whose value is written without quotes. -/
def bareField (key : List UInt8) (value : Json) (code : List UInt8) : Field :=
  { key, value, keyCode := key ++ [0x22], valueCode := code }

/-- The member is read and stands on one line. -/
structure Field.Good (f : Field) : Prop where
  reads : f.Reads
  key : Printable f.keyCode
  value : Printable f.valueCode

theorem good_plainField {key value : List UInt8} (hkey : Plain key) (hvalue : Plain value) : Field.Good (plainField key value) where
  reads := ⟨hkey.reads, readsValue_string hvalue.reads⟩
  key := hkey.printable
  value := .cons (by decide) hvalue.printable

theorem good_bareField {key : List UInt8} (hkey : Plain key) {value : Json} {code : List UInt8} (hvalue : ReadsValue code value)
    (hcode : Printable code) : Field.Good (bareField key value code) where
  reads := ⟨hkey.reads, hvalue⟩
  key := hkey.printable
  value := hcode

/-- The members of a subscription request behind the version. -/
def subscriptionFields (identity : ByteIdentity) (video : List UInt8) (fps jpegQuality : Int) (sharedRing : Bool)
    (codec : List UInt8) (trackSession : Bool) (audio : List UInt8) : List Field :=
  [plainField (bytesOf "extension_id") identity.extensionId, plainField (bytesOf "token") identity.token,
    plainField (bytesOf "video") video] ++
    (if 0 < fps then [bareField (bytesOf "fps") (.number (toStringInt fps)) (toStringInt fps)] else []) ++
    (if 0 < jpegQuality then
      [bareField (bytesOf "quality_factor") (.number (toStringHundredths jpegQuality)) (toStringHundredths jpegQuality)]
    else []) ++
    (if codec ≠ [] then [plainField (bytesOf "codec") codec] else []) ++
    (if audio ≠ [] then [plainField (bytesOf "audio") audio] else []) ++
    (if sharedRing then [plainField (bytesOf "transport") (bytesOf "shm-ring-v1")] else []) ++
    if !trackSession then [bareField (bytesOf "track_session") (.bool false) (bytesOf "false")] else []

/-- `"version":1`, as `SubscriptionJSON` begins. -/
def plainVersion : Field := bareField (bytesOf "version") (.number (decimalCode 1)) (decimalCode 1)

theorem moreCode_append (fields fields' : List Field) : moreCode (fields ++ fields') = moreCode fields ++ moreCode fields' :=
  List.flatMap_append ..

/-- A member that may be left out, behind a comma. -/
theorem moreCode_ite {P : Prop} [Decidable P] {f : Field} {code request : List UInt8} (hcode : code = 0x2c :: f.code) :
    (if P then request ++ code else request) = request ++ moreCode (if P then [f] else []) := by
  split
  · rw [hcode, moreCode, List.flatMap_singleton]
  · rw [moreCode, List.flatMap_nil, List.append_nil]

theorem plainField_code {key value : List UInt8} {open_ : List UInt8} (h : open_ = 0x2c :: 0x22 :: (key ++ [0x22, 0x3a, 0x22])) :
    open_ ++ value ++ bytesOf "\"" = 0x2c :: (plainField key value).code := by
  have hquote : bytesOf "\"" = [0x22] := by decide
  rw [h, hquote, Field.code, plainField]
  simp only [List.cons_append, List.nil_append, List.append_assoc]

theorem bareField_code {key code : List UInt8} {value : Json} {open_ : List UInt8}
    (h : open_ = 0x2c :: 0x22 :: (key ++ [0x22, 0x3a])) : open_ ++ code = 0x2c :: (bareField key value code).code := by
  rw [h, Field.code, bareField]
  simp only [List.cons_append, List.nil_append, List.append_assoc]

variable (identity) (video codec audio : List UInt8) (fps jpegQuality : Int) (sharedRing trackSession : Bool)

theorem subscriptionJSON_eq : identity.subscriptionJSON video fps jpegQuality sharedRing codec trackSession audio =
    objectCode plainVersion (subscriptionFields identity video fps jpegQuality sharedRing codec trackSession audio) ++
      [0x0a] := by
  have hbegin : bytesOf "\x7b\"version\":1,\"extension_id\":\"" ++ identity.extensionId ++ bytesOf "\",\"token\":\"" ++
      identity.token ++ bytesOf "\",\"video\":\"" ++ video ++ bytesOf "\"" =
        0x7b :: (plainVersion.code ++ moreCode [plainField (bytesOf "extension_id") identity.extensionId,
          plainField (bytesOf "token") identity.token, plainField (bytesOf "video") video]) := by
    have hid : bytesOf "\x7b\"version\":1,\"extension_id\":\"" =
        0x7b :: (plainVersion.code ++ 0x2c :: 0x22 :: (bytesOf "extension_id" ++ [0x22, 0x3a, 0x22])) := by decide
    have htoken : bytesOf "\",\"token\":\"" = 0x22 :: 0x2c :: 0x22 :: (bytesOf "token" ++ [0x22, 0x3a, 0x22]) := by decide
    have hvideo : bytesOf "\",\"video\":\"" = 0x22 :: 0x2c :: 0x22 :: (bytesOf "video" ++ [0x22, 0x3a, 0x22]) := by decide
    have hquote : bytesOf "\"" = [0x22] := by decide
    rw [hid, htoken, hvideo, hquote]
    simp [moreCode, plainField, Field.code]
  have hend : bytesOf "\x7d\n" = [0x7d, 0x0a] := by decide
  unfold ByteIdentity.subscriptionJSON
  dsimp only
  rw [hbegin, hend,
    moreCode_ite (f := bareField (bytesOf "track_session") (.bool false) (bytesOf "false")) (by decide),
    moreCode_ite (f := plainField (bytesOf "transport") (bytesOf "shm-ring-v1")) (by decide),
    moreCode_ite (f := plainField (bytesOf "audio") audio) (plainField_code (by decide)),
    moreCode_ite (f := plainField (bytesOf "codec") codec) (plainField_code (by decide)),
    moreCode_ite (f := bareField (bytesOf "quality_factor") (.number (toStringHundredths jpegQuality))
      (toStringHundredths jpegQuality)) (bareField_code (by decide)),
    moreCode_ite (f := bareField (bytesOf "fps") (.number (toStringInt fps)) (toStringInt fps))
      (bareField_code (by decide)), objectCode, subscriptionFields]
  simp only [moreCode_append]
  simp only [List.cons_append, List.append_assoc, List.nil_append]

variable {identity} {video codec audio} {fps jpegQuality} {sharedRing trackSession}

theorem good_ite {P : Prop} [Decidable P] {f : Field} (h : Field.Good f) : ∀ g ∈ (if P then [f] else []), Field.Good g := by
  split
  · exact List.forall_mem_singleton.mpr h
  · exact nofun

variable (fps jpegQuality sharedRing trackSession) in
theorem good_subscriptionFields (hid : Plain identity.extensionId) (htoken : Plain identity.token) (hvideo : Plain video)
    (hcodec : Plain codec) (haudio : Plain audio) :
    ∀ f ∈ plainVersion :: subscriptionFields identity video fps jpegQuality sharedRing codec trackSession audio, Field.Good f := by
  have hfps : Field.Good (bareField (bytesOf "fps") (.number (toStringInt fps)) (toStringInt fps)) :=
    good_bareField (by decide) (readsValue_decimalCode fps.toNat) (printable_digits (digits_decimalCode _))
  have hquality : Field.Good (bareField (bytesOf "quality_factor") (.number (toStringHundredths jpegQuality))
      (toStringHundredths jpegQuality)) :=
    good_bareField (by decide) (readsValue_hundredthsCode 4 jpegQuality.toNat) (printable_hundredthsCode 4 _)
  refine List.forall_mem_cons.mpr ⟨good_bareField (by decide) (readsValue_decimalCode 1) (by decide), ?_⟩
  simp only [subscriptionFields, List.forall_mem_append]
  refine ⟨⟨⟨⟨⟨⟨?_, good_ite hfps⟩, good_ite hquality⟩, good_ite (good_plainField (by decide) hcodec)⟩,
    good_ite (good_plainField (by decide) haudio)⟩, good_ite (good_plainField (by decide) (by decide))⟩,
    good_ite (good_bareField (by decide) readsValue_false (by decide))⟩
  exact List.forall_mem_cons.mpr ⟨good_plainField (by decide) hid, List.forall_mem_cons.mpr
    ⟨good_plainField (by decide) htoken, List.forall_mem_singleton.mpr (good_plainField (by decide) hvideo)⟩⟩

/-- With an identity that `LoadIdentity` accepts, whatever frame rate and quality are asked for: the request is one line,
    and that line is a JSON object with the given members, in which the frame rate is the number of frames and the
    quality factor a hundredth of the quality. -/
theorem subscription_request_line (loaded : loadIdentity id credentials file = .ok identity) (plain_video : Plain video)
    (plain_codec : Plain codec) (plain_audio : Plain audio) (fps jpegQuality : Int) (sharedRing trackSession : Bool) :
    ∃ object fpsText qualityText,
      identity.subscriptionJSON video fps jpegQuality sharedRing codec trackSession audio = object ++ [0x0a] ∧
      0x0a ∉ object ∧
      parse object = some (.object ([(bytesOf "version", .number (bytesOf "1")),
        (bytesOf "extension_id", .string identity.extensionId), (bytesOf "token", .string identity.token),
        (bytesOf "video", .string video)] ++
          (if 0 < fps then [(bytesOf "fps", .number fpsText)] else []) ++
          (if 0 < jpegQuality then [(bytesOf "quality_factor", .number qualityText)] else []) ++
          (if codec ≠ [] then [(bytesOf "codec", .string codec)] else []) ++
          (if audio ≠ [] then [(bytesOf "audio", .string audio)] else []) ++
          (if sharedRing then [(bytesOf "transport", .string (bytesOf "shm-ring-v1"))] else []) ++
          if !trackSession then [(bytesOf "track_session", .bool false)] else [])) ∧
      (0 < fps → numberValue fpsText = fps) ∧ (0 < jpegQuality → numberValue qualityText = jpegQuality / 100) := by
  have hloaded := loadIdentity_eq_ok.mp loaded
  have hgood := good_subscriptionFields fps jpegQuality sharedRing trackSession hloaded.plain_id hloaded.plain_token
    plain_video plain_codec plain_audio
  refine ⟨_, toStringInt fps, toStringHundredths jpegQuality, subscriptionJSON_eq identity video codec audio fps jpegQuality
    sharedRing trackSession, fun hnewline => ?_, ?_, fun hfps => ?_, fun hquality => ?_⟩
  · have hprintable := printable_objectCode fun f hf => ⟨(hgood f hf).key, (hgood f hf).value⟩
    exact absurd (hprintable 0x0a hnewline) (by decide)
  · rw [parse_object fun f hf => (hgood f hf).reads]
    have hversion : decimalCode 1 = bytesOf "1" := by decide
    simp only [subscriptionFields, List.map_cons, List.map_append, apply_ite (List.map _), List.map_nil, plainField, bareField,
      plainVersion, hversion, List.cons_append, List.nil_append]
  · rw [toStringInt, numberValue_decimalCode]
    exact_mod_cast Int.toNat_of_nonneg hfps.le
  · rw [toStringHundredths, numberValue_hundredthsCode]
    congr 1
    exact_mod_cast Int.toNat_of_nonneg hquality.le

/-- A credential of 64 digits on one line. -/
def tokenFile : List UInt8 := List.replicate 64 0x61 ++ [0x0a]

theorem subscription_request_line_media : ∃ object qualityText,
    (ByteIdentity.mk (bytesOf "vnc") (List.replicate 64 0x61)).mediaRequest 60 20 true = object ++ [0x0a] ∧
    0x0a ∉ object ∧ numberValue qualityText = 20 / 100 := by
  have hloaded : loadIdentity (some (bytesOf "vnc")) (some (bytesOf "/run/credentials")) (fun _ => some tokenFile) =
      .ok ⟨bytesOf "vnc", List.replicate 64 0x61⟩ := by decide
  have hvideo : Plain (bytesOf "mjpeg") := by decide
  have hnone : Plain [] := by decide
  obtain ⟨object, -, qualityText, hline, hnewline, -, -, hquality⟩ :=
    subscription_request_line hloaded hvideo hnone hnone 60 20 true false
  exact ⟨object, qualityText, hline, hnewline, hquality (by decide)⟩

/-- The request for the format of the video is one with defaults. -/
theorem subscriptionJSON_defaults (identity : ByteIdentity) (video codec : List UInt8) :
    OnekvmVnc.subscriptionJSON identity video codec = identity.subscriptionJSON video 0 0 false codec true [] := rfl

end OnekvmVnc
