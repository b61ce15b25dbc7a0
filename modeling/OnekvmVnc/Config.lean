import OnekvmVnc.AdminHID

/-! The configuration file as the two programs take it: `LoadConfig` and `ValidateConfig` of `src/config.cpp`, and the
    defaults and checks of `cmd/onekvm-protocol-vnc/main.go`. What the parsers of JSON and of addresses make of their
    texts is given. -/

namespace OnekvmVnc

/-- A value of the file. -/
inductive ConfigValue where
  | boolean (value : Bool)
  | integer (value : Int)
  | string (value : List UInt8)
  | other
  deriving DecidableEq, Repr

/-! ### `config.cpp` -/

/-- `Config`. -/
structure VNCConfig where
  serviceEnabled : Bool := true
  listenAddress : List UInt8 := bytesOf "0.0.0.0"
  port : Int := 5900
  accessControlEnabled : Bool := false
  password : List UInt8 := []
  fps : Int := 60
  jpegQuality : Int := 20
  mediaSocket : List UInt8 := bytesOf "/run/onekvm/extension-media.sock"
  adminSocket : List UInt8 := bytesOf "/run/onekvm/extension-control.sock"
  deriving DecidableEq, Repr

/-- What reading and parsing the file comes to. -/
inductive ConfigFile where
  /-- It cannot be opened, with the text of the error. -/
  | unopened (missing : Bool) (error : String)
  | tooLarge
  | unread
  | invalid
  /-- JSON, but no object. -/
  | value
  /-- An object, with one member of each name. -/
  | object (members : List (String × ConfigValue))
  deriving DecidableEq, Repr

/-- `inet_pton`, for the two families. -/
structure AddressParser where
  ipv4 : List UInt8 → Bool
  ipv6 : List UInt8 → Bool

def allowedFields : List String :=
  ["service_enabled", "listen_address", "port", "access_control_enabled", "password", "fps", "jpeg_quality", "media_socket",
    "admin_socket"]

section
variable (members : List (String × ConfigValue)) (name : String)

def getBoolean (value : Bool) : Except String Bool :=
  match members.lookup name with
  | none => .ok value
  | some (.boolean value) => .ok value
  | some _ => .error ("configuration field " ++ name ++ " must be boolean")

def getInteger (value : Int) : Except String Int :=
  match members.lookup name with
  | none => .ok value
  | some (.integer parsed) =>
    if parsed < -0x80000000 ∨ parsed > 0x7fffffff then .error ("configuration field " ++ name ++ " is out of range")
    else .ok parsed
  | some _ => .error ("configuration field " ++ name ++ " must be integer")

/-- A string ends at its first zero byte. -/
def getString (value : List UInt8) : Except String (List UInt8) :=
  match members.lookup name with
  | none => .ok value
  | some (.string text) => .ok (text.takeWhile (· ≠ 0))
  | some _ => .error ("configuration field " ++ name ++ " must be string")

end

/-- `std::filesystem::path::is_absolute`, and `filepath.IsAbs`. -/
def isAbsolute (path : List UInt8) : Bool := path.head? = some 0x2f

namespace VNCConfig

/-- `ValidateConfig`. -/
def validate (parser : AddressParser) (config : VNCConfig) : Except String Unit :=
  if config.port < 1 ∨ config.port > 65535 then .error "VNC port must be between 1 and 65535"
  else if config.listenAddress = [] ∨ config.listenAddress.length > 64 then
    .error "VNC listen address must contain 1 to 64 characters"
  else if parser.ipv4 config.listenAddress = false ∧ parser.ipv6 config.listenAddress = false then
    .error "VNC listen address must be an IPv4 or IPv6 address"
  else if config.password.length > 8 then .error "VNC password must not exceed 8 bytes"
  else if config.accessControlEnabled ∧ config.password = [] then
    .error "VNC password is required when access control is enabled"
  else if config.fps < 1 ∨ config.fps > 60 then .error "VNC FPS must be between 1 and 60"
  else if config.jpegQuality < 1 ∨ config.jpegQuality > 100 then .error "VNC JPEG quality must be between 1 and 100"
  else if !isAbsolute config.mediaSocket then .error "VNC media socket path must be absolute"
  else if !isAbsolute config.adminSocket then .error "VNC admin socket path must be absolute"
  else .ok ()

/-- The members of the object replace what is in the configuration. -/
def read (config : VNCConfig) (members : List (String × ConfigValue)) : Except String VNCConfig := do
  match members.find? (fun member => !allowedFields.contains member.1) with
  | some (key, _) => throw ("unknown protocol configuration field " ++ key)
  | none =>
    let serviceEnabled ← getBoolean members "service_enabled" config.serviceEnabled
    let listenAddress ← getString members "listen_address" config.listenAddress
    let port ← getInteger members "port" config.port
    let accessControlEnabled ← getBoolean members "access_control_enabled" config.accessControlEnabled
    let password ← getString members "password" config.password
    let fps ← getInteger members "fps" config.fps
    let jpegQuality ← getInteger members "jpeg_quality" config.jpegQuality
    let mediaSocket ← getString members "media_socket" config.mediaSocket
    let adminSocket ← getString members "admin_socket" config.adminSocket
    return { serviceEnabled, listenAddress, port, accessControlEnabled, password, fps, jpegQuality, mediaSocket, adminSocket }

/-- `LoadConfig`, with the configuration that it leaves behind. -/
def load (parser : AddressParser) (config : VNCConfig) (path : String) (allowMissing : Bool) :
    ConfigFile → Except String VNCConfig
  | .unopened missing error =>
    if allowMissing ∧ missing then do
      config.validate parser
      return config
    else .error ("open protocol configuration " ++ path ++ ": " ++ error)
  | .tooLarge => .error "protocol configuration exceeds 1 MiB"
  | .unread => .error ("read protocol configuration " ++ path)
  | .invalid => .error ("decode protocol configuration " ++ path ++ ": invalid JSON")
  | .value => .error "protocol configuration must be an object"
  | .object members => do
    let config ← config.read members
    config.validate parser
    return config

end VNCConfig

/-! ### `main.go` -/

/-- `config`. -/
structure ProcessConfig where
  serviceEnabled : Option Bool
  listenAddress : List UInt8
  port : Int
  password : List UInt8
  fps : Int
  jpegQuality : Int
  mediaSocket : List UInt8
  adminSocket : List UInt8
  deriving DecidableEq, Repr

/-- The constants of the packages that are used. -/
structure SocketDefaults where
  mediaSocket : List UInt8
  controlSocket : List UInt8

namespace ProcessConfig
variable (config : ProcessConfig)

def enabled : Bool := config.serviceEnabled.getD true

/-- `applyVNCDefaults`. -/
def applyDefaults (defaults : SocketDefaults) : ProcessConfig :=
  { config with
    listenAddress := if config.listenAddress = [] then bytesOf "0.0.0.0" else config.listenAddress
    port := if config.port = 0 then 5900 else config.port
    fps := if config.fps ≤ 0 then 60 else config.fps
    jpegQuality := if config.jpegQuality ≤ 0 then 20 else config.jpegQuality
    mediaSocket := if config.mediaSocket = [] then defaults.mediaSocket else config.mediaSocket
    adminSocket := if config.adminSocket = [] then defaults.controlSocket else config.adminSocket }

/-- `vnc.ValidateConfig`. -/
def validateSink : Except String Unit :=
  if config.port < 1 ∨ config.port > 65535 then .error "VNC port must be between 1 and 65535"
  else if config.password.length > 8 then .error "VNC password must not exceed 8 bytes"
  else .ok ()

/-- The loop over the paths. -/
def checkPaths (paths : List (String × List UInt8)) : Except String Unit :=
  match paths.find? fun path => !isAbsolute path.2 with
  | some (name, _) => .error ("VNC " ++ name ++ " path must be absolute")
  | none => .ok ()

/-- `validateVNCConfig`. The map with the two paths is gone through in any order. -/
def validate (mediaFirst : Bool) : Except String Unit := do
  config.validateSink
  if config.fps < 1 ∨ config.fps > 60 then .error "VNC FPS must be between 1 and 60"
  else if config.jpegQuality < 1 ∨ config.jpegQuality > 100 then .error "VNC JPEG quality must be between 1 and 100"
  else
    let paths := [("media socket", config.mediaSocket), ("admin socket", config.adminSocket)]
    checkPaths (if mediaFirst then paths else paths.reverse)

end ProcessConfig

end OnekvmVnc
