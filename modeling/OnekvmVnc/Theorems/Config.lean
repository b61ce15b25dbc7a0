import Mathlib.Data.List.TakeWhile
import OnekvmVnc.Config

/-! The two programs take the same configuration from the same file, and where one of them refuses a file that the other
    one takes is known exactly. -/

namespace OnekvmVnc

variable {members : List (String × ConfigValue)} {name : String} {parser : AddressParser}

/-! ### Members -/

theorem ite_error_eq_ok {ε α : Type} {p : Prop} [Decidable p] {e : ε} {x : Except ε α} {a : α} :
    (if p then .error e else x) = .ok a ↔ ¬ p ∧ x = .ok a := by
  split
  · rename_i hp
    exact ⟨fun h => (by cases h), fun h => absurd hp h.1⟩
  · rename_i hp
    exact ⟨fun h => ⟨hp, h⟩, fun h => h.2⟩

theorem bind_eq_ok {ε α β : Type} {x : Except ε α} {f : α → Except ε β} {b : β} :
    (x >>= f) = .ok b ↔ ∃ a, x = .ok a ∧ f a = .ok b := by
  cases x with
  | error e => exact ⟨fun h => (by cases h), fun ⟨_, h, _⟩ => (by cases h)⟩
  | ok a => exact ⟨fun h => ⟨a, rfl, h⟩, fun ⟨_, h, hb⟩ => Except.ok.inj h ▸ hb⟩

def booleanOf (members : List (String × ConfigValue)) (name : String) (value : Bool) : Bool :=
  match members.lookup name with
  | some (.boolean value) => value
  | _ => value

def integerOf (members : List (String × ConfigValue)) (name : String) (value : Int) : Int :=
  match members.lookup name with
  | some (.integer value) => value
  | _ => value

def textOf (members : List (String × ConfigValue)) (name : String) (value : List UInt8) : List UInt8 :=
  match members.lookup name with
  | some (.string value) => value
  | _ => value

/-- The range of an `int`. -/
def IntRange (i : Int) : Prop := -0x80000000 ≤ i ∧ i ≤ 0x7fffffff

instance (i : Int) : Decidable (IntRange i) := inferInstanceAs (Decidable (_ ∧ _))

/-- Every member has a known name and a value of its type, and no text has a zero byte. -/
structure Proper (members : List (String × ConfigValue)) : Prop where
  known : ∀ member ∈ members, member.1 ∈ allowedFields
  booleans : ∀ name ∈ ["service_enabled", "access_control_enabled"], ∀ value ∈ members.lookup name, ∃ b, value = .boolean b
  integers : ∀ name ∈ ["port", "fps", "jpeg_quality"], ∀ value ∈ members.lookup name, ∃ i, value = .integer i
  texts : ∀ name ∈ ["listen_address", "password", "media_socket", "admin_socket"], ∀ value ∈ members.lookup name,
    ∃ text, value = .string text ∧ 0 ∉ text

theorem getBoolean_eq (value : Bool) (h : ∀ value ∈ members.lookup name, ∃ b, value = .boolean b) :
    getBoolean members name value = .ok (booleanOf members name value) := by
  unfold getBoolean booleanOf
  cases hlookup : members.lookup name with
  | none => rfl
  | some found =>
    obtain ⟨b, rfl⟩ := h found hlookup
    rfl

theorem getInteger_eq_ok (value : Int) {i : Int} (range : IntRange value)
    (h : ∀ value ∈ members.lookup name, ∃ i, value = .integer i) :
    getInteger members name value = .ok i ↔ IntRange i ∧ integerOf members name value = i := by
  unfold getInteger integerOf
  cases hlookup : members.lookup name with
  | none =>
    dsimp only
    rw [Except.ok.injEq]
    exact ⟨fun heq => ⟨heq ▸ range, heq⟩, And.right⟩
  | some found =>
    obtain ⟨parsed, rfl⟩ := h found hlookup
    dsimp only
    rw [ite_error_eq_ok, Except.ok.injEq]
    constructor
    · rintro ⟨hrange, rfl⟩
      exact ⟨⟨by omega, by omega⟩, rfl⟩
    · rintro ⟨⟨hlow, hhigh⟩, rfl⟩
      exact ⟨by omega, rfl⟩

theorem takeWhile_eq {text : List UInt8} (h : 0 ∉ text) : text.takeWhile (· ≠ 0) = text := by
  rw [List.takeWhile_eq_self_iff]
  intro b hb
  exact decide_eq_true fun hzero => h (hzero ▸ hb)

theorem getString_eq (value : List UInt8) (h : ∀ value ∈ members.lookup name, ∃ text, value = .string text ∧ 0 ∉ text) :
    getString members name value = .ok (textOf members name value) := by
  unfold getString textOf
  cases hlookup : members.lookup name with
  | none => rfl
  | some found =>
    obtain ⟨text, rfl, hzero⟩ := h found hlookup
    dsimp only
    rw [takeWhile_eq hzero]

/-! ### `config.cpp` -/

namespace VNCConfig
variable {config : VNCConfig}

/-- A configuration that the server can be run with. -/
structure Valid (parser : AddressParser) (config : VNCConfig) : Prop where
  port : 1 ≤ config.port ∧ config.port ≤ 65535
  address : config.listenAddress ≠ [] ∧ config.listenAddress.length ≤ 64 ∧
    (parser.ipv4 config.listenAddress = true ∨ parser.ipv6 config.listenAddress = true)
  password : config.password.length ≤ 8
  access : config.accessControlEnabled = true → config.password ≠ []
  fps : 1 ≤ config.fps ∧ config.fps ≤ 60
  jpegQuality : 1 ≤ config.jpegQuality ∧ config.jpegQuality ≤ 100
  mediaSocket : isAbsolute config.mediaSocket = true
  adminSocket : isAbsolute config.adminSocket = true

theorem validate_eq_ok : config.validate parser = .ok () ↔ config.Valid parser := by
  simp only [validate, ite_error_eq_ok, not_or, not_and, Int.not_lt, Nat.not_lt, Bool.not_eq_false, Bool.not_eq_true',
    Bool.not_eq_false, and_true]
  constructor
  · rintro ⟨hport, hlength, hparsed, hpassword, haccess, hfps, hquality, hmedia, hadmin⟩
    refine ⟨hport, ⟨hlength.1, hlength.2, ?_⟩, hpassword, haccess, hfps, hquality, hmedia, hadmin⟩
    by_cases hipv4 : parser.ipv4 config.listenAddress = true
    · exact .inl hipv4
    · exact .inr (hparsed (Bool.not_eq_true _ ▸ hipv4))
  · rintro ⟨hport, ⟨hempty, hlength, hparsed⟩, hpassword, haccess, hfps, hquality, hmedia, hadmin⟩
    exact ⟨hport, ⟨hempty, hlength⟩, fun hipv4 => hparsed.resolve_left (by rw [hipv4]; decide), hpassword, haccess, hfps,
      hquality, hmedia, hadmin⟩

/-- The configuration that the members make of the defaults. -/
def ofMembers (members : List (String × ConfigValue)) : VNCConfig :=
  let defaults : VNCConfig := {}
  { serviceEnabled := booleanOf members "service_enabled" defaults.serviceEnabled
    listenAddress := textOf members "listen_address" defaults.listenAddress
    port := integerOf members "port" defaults.port
    accessControlEnabled := booleanOf members "access_control_enabled" defaults.accessControlEnabled
    password := textOf members "password" defaults.password
    fps := integerOf members "fps" defaults.fps
    jpegQuality := integerOf members "jpeg_quality" defaults.jpegQuality
    mediaSocket := textOf members "media_socket" defaults.mediaSocket
    adminSocket := textOf members "admin_socket" defaults.adminSocket }

/-- The members are read if their integers are in the range of an `int`. -/
theorem read_eq_ok (proper : Proper members) : VNCConfig.read {} members = .ok config ↔
    config = ofMembers members ∧ IntRange config.port ∧ IntRange config.fps ∧ IntRange config.jpegQuality := by
  have hknown : members.find? (fun member => !allowedFields.contains member.1) = none := by
    rw [List.find?_eq_none]
    intro member hmember hunknown
    rw [Bool.not_eq_true', ← Bool.not_eq_true, List.contains_iff_mem] at hunknown
    exact hunknown (proper.known member hmember)
  have hbooleans := proper.booleans
  have hintegers := proper.integers
  have htexts := proper.texts
  simp only [List.forall_mem_cons, List.not_mem_nil, false_implies, implies_true, and_true] at hbooleans hintegers htexts
  obtain ⟨hservice, haccess⟩ := hbooleans
  obtain ⟨hport, hfps, hquality⟩ := hintegers
  obtain ⟨haddress, hpassword, hmedia, hadmin⟩ := htexts
  simp only [read, hknown, getBoolean_eq _ hservice, getBoolean_eq _ haccess, getString_eq _ haddress, getString_eq _ hpassword,
    getString_eq _ hmedia, getString_eq _ hadmin, bind_eq_ok, getInteger_eq_ok 5900 (by decide) hport,
    getInteger_eq_ok 60 (by decide) hfps, getInteger_eq_ok 20 (by decide) hquality, Except.ok.injEq, exists_eq_left']
  constructor
  · rintro ⟨port, ⟨hport, rfl⟩, fps, ⟨hfps, rfl⟩, quality, ⟨hquality, rfl⟩, hconfig⟩
    cases hconfig
    exact ⟨rfl, hport, hfps, hquality⟩
  · rintro ⟨rfl, hport, hfps, hquality⟩
    exact ⟨_, ⟨hport, rfl⟩, _, ⟨hfps, rfl⟩, _, ⟨hquality, rfl⟩, rfl⟩

theorem load_eq_ok (proper : Proper members) {path : String} {allowMissing : Bool} :
    load parser {} path allowMissing (.object members) = .ok config ↔ config = ofMembers members ∧ config.Valid parser := by
  have hvalidate (other : VNCConfig) :
      (do other.validate parser; return other) = (.ok config : Except String VNCConfig) ↔ other = config ∧ config.Valid parser := by
    rw [bind_eq_ok]
    constructor
    · rintro ⟨_, hvalid, hother⟩
      obtain rfl := Except.ok.inj hother
      exact ⟨rfl, validate_eq_ok.mp hvalid⟩
    · rintro ⟨rfl, hvalid⟩
      exact ⟨(), validate_eq_ok.mpr hvalid, rfl⟩
  rw [load, bind_eq_ok]
  constructor
  · rintro ⟨other, hread, hload⟩
    obtain ⟨rfl, hvalid⟩ := (hvalidate other).mp hload
    exact ⟨((read_eq_ok proper).mp hread).1, hvalid⟩
  · rintro ⟨hmembers, hvalid⟩
    have hport := hvalid.port
    have hfps := hvalid.fps
    have hquality := hvalid.jpegQuality
    refine ⟨config, (read_eq_ok proper).mpr ⟨hmembers, ?_, ?_, ?_⟩, (hvalidate config).mpr ⟨rfl, hvalid⟩⟩
    all_goals
      unfold IntRange
      omega

end VNCConfig

/-! ### `main.go` -/

namespace ProcessConfig
variable {config : ProcessConfig}

/-- What the decoder of JSON makes of the members: what is not there is zero. -/
def ofMembers (members : List (String × ConfigValue)) : ProcessConfig :=
  { serviceEnabled := match members.lookup "service_enabled" with
      | some (.boolean value) => some value
      | _ => none
    listenAddress := textOf members "listen_address" []
    port := integerOf members "port" 0
    password := textOf members "password" []
    fps := integerOf members "fps" 0
    jpegQuality := integerOf members "jpeg_quality" 0
    mediaSocket := textOf members "media_socket" []
    adminSocket := textOf members "admin_socket" [] }

structure Valid (config : ProcessConfig) : Prop where
  port : 1 ≤ config.port ∧ config.port ≤ 65535
  password : config.password.length ≤ 8
  fps : 1 ≤ config.fps ∧ config.fps ≤ 60
  jpegQuality : 1 ≤ config.jpegQuality ∧ config.jpegQuality ≤ 100
  mediaSocket : isAbsolute config.mediaSocket = true
  adminSocket : isAbsolute config.adminSocket = true

theorem checkPaths_eq_ok {paths : List (String × List UInt8)} :
    checkPaths paths = .ok () ↔ ∀ path ∈ paths, isAbsolute path.2 = true := by
  unfold checkPaths
  split
  · rename_i name path hfind
    have hrelative := List.find?_some hfind
    rw [Bool.not_eq_true'] at hrelative
    refine ⟨fun h => (by cases h), fun h => ?_⟩
    rw [h _ (List.mem_of_find?_eq_some hfind)] at hrelative
    cases hrelative
  · rename_i hfind
    refine ⟨fun _ path hpath => ?_, fun _ => rfl⟩
    simpa using List.find?_eq_none.mp hfind path hpath

theorem validate_eq_ok {mediaFirst : Bool} : config.validate mediaFirst = .ok () ↔ config.Valid := by
  rw [validate, bind_eq_ok]
  have hpaths : (∀ path ∈ if mediaFirst then [("media socket", config.mediaSocket), ("admin socket", config.adminSocket)]
      else [("media socket", config.mediaSocket), ("admin socket", config.adminSocket)].reverse, isAbsolute path.2 = true) ↔
        isAbsolute config.mediaSocket = true ∧ isAbsolute config.adminSocket = true := by
    cases mediaFirst <;> simp [and_comm]
  simp only [validateSink, ite_error_eq_ok, checkPaths_eq_ok, hpaths, not_or, Int.not_lt, Nat.not_lt, and_true]
  constructor
  · rintro ⟨_, ⟨hport, hpassword⟩, hfps, hquality, hmedia, hadmin⟩
    exact ⟨hport, hpassword, hfps, hquality, hmedia, hadmin⟩
  · rintro ⟨hport, hpassword, hfps, hquality, hmedia, hadmin⟩
    exact ⟨(), ⟨hport, hpassword⟩, hfps, hquality, hmedia, hadmin⟩

end ProcessConfig

/-! ### Both -/

/-- What is not there is zero, and zero is replaced by the default. -/
theorem integerOf_default {P : Int → Prop} [DecidablePred P] {value : Int} (zero : P 0)
    (present : ¬ P (integerOf members name value)) :
    (if P (integerOf members name 0) then value else integerOf members name 0) = integerOf members name value := by
  unfold integerOf at present ⊢
  split at present
  · rename_i i hlookup
    rw [if_neg present]
  · rw [if_pos zero]

theorem textOf_default {value : List UInt8} (present : textOf members name value ≠ []) :
    (if textOf members name [] = [] then value else textOf members name []) = textOf members name value := by
  unfold textOf at present ⊢
  split at present
  · rename_i text hlookup
    rw [if_neg present]
  · rw [if_pos rfl]

theorem isAbsolute_textOf {value other : List UInt8} (absolute : isAbsolute value = true) (absolute' : isAbsolute other = true) :
    isAbsolute (textOf members name value) = true ↔
      isAbsolute (if textOf members name [] = [] then other else textOf members name []) = true ∧
        textOf members name value ≠ [] := by
  have hne {path : List UInt8} (h : isAbsolute path = true) : path ≠ [] := by
    rintro rfl
    cases h
  unfold textOf
  split
  · rename_i text hlookup
    by_cases hempty : text = []
    · subst hempty
      exact ⟨fun h => absurd rfl (hne h), fun h => absurd rfl h.2⟩
    · rw [if_neg hempty]
      exact ⟨fun h => ⟨h, hempty⟩, And.left⟩
  · rw [if_pos rfl]
    exact ⟨fun _ => ⟨absolute', hne absolute⟩, fun _ => absolute⟩

/-- What the server asks of a file beyond what the other program does. -/
structure Strict (parser : AddressParser) (members : List (String × ConfigValue)) : Prop where
  port : integerOf members "port" 5900 ≠ 0
  fps : 0 < integerOf members "fps" 60
  jpegQuality : 0 < integerOf members "jpeg_quality" 20
  address : textOf members "listen_address" (bytesOf "0.0.0.0") ≠ [] ∧
    (textOf members "listen_address" (bytesOf "0.0.0.0")).length ≤ 64 ∧
    (parser.ipv4 (textOf members "listen_address" (bytesOf "0.0.0.0")) = true ∨
      parser.ipv6 (textOf members "listen_address" (bytesOf "0.0.0.0")) = true)
  access : booleanOf members "access_control_enabled" false = true → textOf members "password" [] ≠ []
  mediaSocket : (VNCConfig.ofMembers members).mediaSocket ≠ []
  adminSocket : (VNCConfig.ofMembers members).adminSocket ≠ []

/-- The two programs run with the same values. Only the path of a socket that the file does not name is up to the packages
    that the one program uses. -/
structure Same (members : List (String × ConfigValue)) (c : VNCConfig) (g : ProcessConfig) : Prop where
  enabled : g.enabled = c.serviceEnabled
  listenAddress : g.listenAddress = c.listenAddress
  port : g.port = c.port
  password : g.password = c.password
  fps : g.fps = c.fps
  jpegQuality : g.jpegQuality = c.jpegQuality
  mediaSocket : ∀ text, members.lookup "media_socket" = some (.string text) → g.mediaSocket = c.mediaSocket
  adminSocket : ∀ text, members.lookup "admin_socket" = some (.string text) → g.adminSocket = c.adminSocket

section
variable {defaults : SocketDefaults}

theorem enabled_ofMembers : (ProcessConfig.ofMembers members).enabled = (VNCConfig.ofMembers members).serviceEnabled := by
  change Option.getD (match members.lookup "service_enabled" with | some (.boolean value) => some value | _ => none) true =
    booleanOf members "service_enabled" true
  unfold booleanOf
  split <;> rfl

theorem Strict.same (strict : Strict parser members) :
    Same members (.ofMembers members) ((ProcessConfig.ofMembers members).applyDefaults defaults) where
  enabled := enabled_ofMembers
  listenAddress := textOf_default strict.address.1
  port := integerOf_default (P := (· = 0)) rfl strict.port
  password := rfl
  fps := integerOf_default (P := (· ≤ 0)) (le_refl 0) (not_le.mpr strict.fps)
  jpegQuality := integerOf_default (P := (· ≤ 0)) (le_refl 0) (not_le.mpr strict.jpegQuality)
  mediaSocket text h := by
    have hpresent := strict.mediaSocket
    change textOf members "media_socket" _ ≠ [] at hpresent
    change (if textOf members "media_socket" [] = [] then _ else textOf members "media_socket" []) =
      textOf members "media_socket" _
    simp only [textOf, h] at hpresent ⊢
    rw [if_neg hpresent]
  adminSocket text h := by
    have hpresent := strict.adminSocket
    change textOf members "admin_socket" _ ≠ [] at hpresent
    change (if textOf members "admin_socket" [] = [] then _ else textOf members "admin_socket" []) =
      textOf members "admin_socket" _
    simp only [textOf, h] at hpresent ⊢
    rw [if_neg hpresent]

theorem valid_iff (absolute : isAbsolute defaults.mediaSocket = true ∧ isAbsolute defaults.controlSocket = true) :
    (VNCConfig.ofMembers members).Valid parser ↔
      ((ProcessConfig.ofMembers members).applyDefaults defaults).Valid ∧ Strict parser members := by
  have hmedia : isAbsolute (VNCConfig.ofMembers members).mediaSocket = true ↔ isAbsolute
      ((ProcessConfig.ofMembers members).applyDefaults defaults).mediaSocket = true ∧ (VNCConfig.ofMembers members).mediaSocket ≠ [] :=
    isAbsolute_textOf (by decide) absolute.1
  have hadmin : isAbsolute (VNCConfig.ofMembers members).adminSocket = true ↔ isAbsolute
      ((ProcessConfig.ofMembers members).applyDefaults defaults).adminSocket = true ∧ (VNCConfig.ofMembers members).adminSocket ≠ [] :=
    isAbsolute_textOf (by decide) absolute.2
  constructor
  · intro valid
    have strict : Strict parser members :=
      { port := by
          have hport : 1 ≤ integerOf members "port" 5900 := valid.port.1
          omega
        fps := valid.fps.1
        jpegQuality := valid.jpegQuality.1
        address := valid.address
        access := valid.access
        mediaSocket := (hmedia.mp valid.mediaSocket).2
        adminSocket := (hadmin.mp valid.adminSocket).2 }
    have same : Same members (.ofMembers members) ((ProcessConfig.ofMembers members).applyDefaults defaults) := strict.same
    refine ⟨⟨?_, valid.password, ?_, ?_, (hmedia.mp valid.mediaSocket).1, (hadmin.mp valid.adminSocket).1⟩, strict⟩
    · rw [same.port]
      exact valid.port
    · rw [same.fps]
      exact valid.fps
    · rw [same.jpegQuality]
      exact valid.jpegQuality
  · rintro ⟨valid, strict⟩
    have same : Same members (.ofMembers members) ((ProcessConfig.ofMembers members).applyDefaults defaults) := strict.same
    refine ⟨?_, strict.address, valid.password, strict.access, ?_, ?_, hmedia.mpr ⟨valid.mediaSocket, strict.mediaSocket⟩,
      hadmin.mpr ⟨valid.adminSocket, strict.adminSocket⟩⟩
    · rw [← same.port]
      exact valid.port
    · rw [← same.fps]
      exact valid.fps
    · rw [← same.jpegQuality]
      exact valid.jpegQuality

/-- `decoded` is what is relied on of `LoadConfig` of the other program, whose code is not here: it hands over the members
    as they are, and passes over access control. Then of every file with known members of the right types, the server
    takes what the other program takes too, but for the cases of `Strict`: a zero that stands for a default, an address
    that is none, access control without a password. What both take they run with alike. -/
theorem configs_agree (proper : Proper members) (absolute : isAbsolute defaults.mediaSocket = true ∧
    isAbsolute defaults.controlSocket = true) {g : ProcessConfig} (decoded : g = .ofMembers members) (parser : AddressParser)
    (path : String) (allowMissing mediaFirst : Bool) :
    ((∃ c, VNCConfig.load parser {} path allowMissing (.object members) = .ok c) ↔
      (g.applyDefaults defaults).validate mediaFirst = .ok () ∧ Strict parser members) ∧
    ∀ c, VNCConfig.load parser {} path allowMissing (.object members) = .ok c → Same members c (g.applyDefaults defaults) := by
  subst decoded
  rw [ProcessConfig.validate_eq_ok, ← valid_iff absolute]
  constructor
  · constructor
    · rintro ⟨c, hload⟩
      obtain ⟨rfl, hvalid⟩ := (VNCConfig.load_eq_ok proper).mp hload
      exact hvalid
    · intro hvalid
      exact ⟨_, (VNCConfig.load_eq_ok proper).mpr ⟨rfl, hvalid⟩⟩
  · intro c hload
    obtain ⟨rfl, hvalid⟩ := (VNCConfig.load_eq_ok proper).mp hload
    exact ((valid_iff absolute).mp hvalid).2.same

/-- The server listens on the host itself, with a password. -/
def localFile : List (String × ConfigValue) :=
  [("port", .integer 5901), ("listen_address", .string (bytesOf "127.0.0.1")), ("access_control_enabled", .boolean true),
    ("password", .string (bytesOf "secret"))]

theorem localFile_proper : Proper localFile where
  known := by decide
  booleans := by
    simp only [List.forall_mem_cons, List.not_mem_nil, false_implies, implies_true, and_true]
    exact ⟨fun value hvalue => (by cases hvalue), fun value hvalue => ⟨true, (Option.some.inj hvalue).symm⟩⟩
  integers := by
    simp only [List.forall_mem_cons, List.not_mem_nil, false_implies, implies_true, and_true]
    exact ⟨fun value hvalue => ⟨5901, (Option.some.inj hvalue).symm⟩, fun value hvalue => (by cases hvalue),
      fun value hvalue => (by cases hvalue)⟩
  texts := by
    simp only [List.forall_mem_cons, List.not_mem_nil, false_implies, implies_true, and_true]
    exact ⟨fun value hvalue => ⟨bytesOf "127.0.0.1", (Option.some.inj hvalue).symm, by decide⟩,
      fun value hvalue => ⟨bytesOf "secret", (Option.some.inj hvalue).symm, by decide⟩, fun value hvalue => (by cases hvalue),
      fun value hvalue => (by cases hvalue)⟩

/-- Both run on the port of the file, with its password. -/
theorem configs_agree_local :
    let parser : AddressParser := { ipv4 := fun text => text = bytesOf "127.0.0.1", ipv6 := fun _ => false }
    let defaults : SocketDefaults := { mediaSocket := bytesOf "/run/media.sock", controlSocket := bytesOf "/run/control.sock" }
    let g := (ProcessConfig.ofMembers localFile).applyDefaults defaults
    ∃ c, VNCConfig.load parser {} "config.json" false (.object localFile) = .ok c ∧ c.port = 5901 ∧ g.port = c.port ∧
      g.password = c.password := by
  intro parser defaults g
  have hload : VNCConfig.load parser {} "config.json" false (.object localFile) =
      .ok { port := 5901, listenAddress := bytesOf "127.0.0.1", accessControlEnabled := true, password := bytesOf "secret" } := by
    decide
  have absolute : isAbsolute defaults.mediaSocket = true ∧ isAbsolute defaults.controlSocket = true := by decide
  have hsame : Same localFile _ g := (configs_agree localFile_proper absolute rfl parser "config.json" false true).2 _ hload
  exact ⟨_, hload, rfl, hsame.port, hsame.password⟩

end

end OnekvmVnc
