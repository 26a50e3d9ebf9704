import Camstream.Lib.Decimal
import Camstream.Lib.Run

/-!
# The command line

`src/app/app_config.c`: the defaults, `match_opt`, `parse_long` and `app_config_parse`, for the three builds. A
build is a parameter, and so is the size of a `long`. What is printed to `stderr` is part of the outcome.

The fifteen options that take a value differ in their names, in the field they set and in the type of the field;
`Opt` has one constructor for each of them, and `options` has the order in which the code tries them.
-/

namespace Camstream

open CString

/-- What the program is compiled for: `USE_JANUS_TRANSPORT`, `USE_LIBPEER`, or neither. -/
inductive Build
  | native
  | libpeer
  | janus
  deriving DecidableEq, Repr

/-- `AppConfig` -/
structure AppConfig where
  device : List UInt8
  useTestSource : Bool
  width : UInt32
  height : UInt32
  fps : UInt32
  listen : List UInt8
  httpPort : UInt16
  udpBasePort : UInt16
  bitrateKbps : UInt32
  keyframeSeconds : UInt32
  webrtcBackend : List UInt8
  janusHost : List UInt8
  janusRtpPort : UInt16
  janusRtcpPort : UInt16
  janusRtcpListen : UInt16
  encoder : List UInt8
  verbose : Bool
  deriving DecidableEq, Repr

/-- `app_config_defaults`; only the Janus build assigns the fields for Janus. -/
def appConfigDefaults (build : Build) (config : AppConfig) : AppConfig :=
  let config := { config with
    device := ascii "/dev/video0"
    useTestSource := false
    width := 640
    height := 480
    fps := 30
    listen := ascii "0.0.0.0"
    httpPort := if build = Build.libpeer then 8000 else 8080
    udpBasePort := 50000
    bitrateKbps := 2500
    keyframeSeconds := 2
    encoder := ascii "auto"
    verbose := false }
  match build with
  | .janus => { config with
      webrtcBackend := ascii "janus"
      janusHost := ascii "127.0.0.1"
      janusRtpPort := 5004
      janusRtcpPort := 5005
      janusRtcpListen := 5006 }
  | .libpeer => { config with webrtcBackend := ascii "libpeer" }
  | .native => { config with webrtcBackend := ascii "native" }

/-! ### Options -/

/-- The options whose value is a text. -/
inductive TextOpt
  | device
  | listen
  | webrtc
  | janusHost
  | encoder
  deriving DecidableEq, Repr

/-- The options whose value is a number. -/
inductive NumberOpt
  | width
  | height
  | fps
  | httpPort
  | udpPort
  | janusRtpPort
  | janusRtcpPort
  | janusRtcpListen
  | bitrate
  | keyframe
  deriving DecidableEq, Repr

/-- The options that take a value. -/
inductive Opt
  | text (o : TextOpt)
  | number (o : NumberOpt)
  deriving DecidableEq, Repr

/-- The order in which `app_config_parse` tries the options. -/
def options : List Opt :=
  [.text .device, .number .width, .number .height, .number .fps, .text .listen, .number .httpPort,
    .number .udpPort, .text .webrtc, .text .janusHost, .number .janusRtpPort, .number .janusRtcpPort,
    .number .janusRtcpListen, .number .bitrate, .number .keyframe, .text .encoder]

/-- The argument `short_name` of `match_opt`, which may be `NULL`. -/
def Opt.shortName : Opt → Option (List UInt8)
  | .text .device => some (ascii "-d")
  | .text .listen => some (ascii "-l")
  | .text .webrtc => none
  | .text .janusHost => none
  | .text .encoder => some (ascii "-e")
  | .number .width => some (ascii "-W")
  | .number .height => some (ascii "-H")
  | .number .fps => some (ascii "-F")
  | .number .httpPort => some (ascii "-p")
  | .number .udpPort => some (ascii "-u")
  | .number .janusRtpPort => none
  | .number .janusRtcpPort => none
  | .number .janusRtcpListen => none
  | .number .bitrate => some (ascii "-b")
  | .number .keyframe => some (ascii "-K")

/-- The name that messages call a number by. -/
def NumberOpt.name : NumberOpt → List UInt8
  | .width => ascii "width"
  | .height => ascii "height"
  | .fps => ascii "fps"
  | .httpPort => ascii "http-port"
  | .udpPort => ascii "udp-port"
  | .janusRtpPort => ascii "janus-rtp-port"
  | .janusRtcpPort => ascii "janus-rtcp-port"
  | .janusRtcpListen => ascii "janus-rtcp-listen"
  | .bitrate => ascii "bitrate"
  | .keyframe => ascii "keyframe"

/-- The argument `long_name` of `match_opt`. -/
def Opt.longName : Opt → List UInt8
  | .text .device => ascii "--device"
  | .text .listen => ascii "--listen"
  | .text .webrtc => ascii "--webrtc"
  | .text .janusHost => ascii "--janus-host"
  | .text .encoder => ascii "--encoder"
  | .number .width => ascii "--width"
  | .number .height => ascii "--height"
  | .number .fps => ascii "--fps"
  | .number .httpPort => ascii "--http-port"
  | .number .udpPort => ascii "--udp-port"
  | .number .janusRtpPort => ascii "--janus-rtp-port"
  | .number .janusRtcpPort => ascii "--janus-rtcp-port"
  | .number .janusRtcpListen => ascii "--janus-rtcp-listen"
  | .number .bitrate => ascii "--bitrate"
  | .number .keyframe => ascii "--keyframe"

/-- `match_opt`: no match, or the value behind an equals sign, or `some none`, where the value is the next
argument. -/
def matchOpt (arg : List UInt8) (o : Opt) : Option (Option (List UInt8)) :=
  let head := arg.takeWhile (· ≠ 0x3D)
  if 64 ≤ head.length then none
  else if o.shortName = some head ∨ o.longName = head then
    some (if 0x3D ∈ arg then some (arg.drop (head.length + 1)) else none)
  else none

/-- The first option that matches, with what `match_opt` says of its value. -/
def findOpt (arg : List UInt8) : Option (Opt × Option (List UInt8)) :=
  options.findSome? fun o ↦ (matchOpt arg o).map fun value ↦ (o, value)

/-! ### Values -/

/-- `parse_long` with a `long` of so many bits: the number, or what it prints before `exit(2)`. -/
def parseLong (bits : ℕ) (value name : List UInt8) : Except (List UInt8) ℤ :=
  let result := (strtolLong bits value).getD 0
  if strtolRest value ≠ [] ∨ result < 0 then
    .error (ascii "invalid number for " ++ name ++ ascii ": " ++ value ++ ascii "\n")
  else .ok result

/-- The assignments of a number, with the cast to the type of the field. -/
def AppConfig.setNumber (config : AppConfig) (o : NumberOpt) (result : ℤ) : AppConfig :=
  match o with
  | .width => { config with width := UInt32.ofInt result }
  | .height => { config with height := UInt32.ofInt result }
  | .fps => { config with fps := UInt32.ofInt result }
  | .httpPort => { config with httpPort := UInt16.ofInt result }
  | .udpPort => { config with udpBasePort := UInt16.ofInt result }
  | .janusRtpPort => { config with janusRtpPort := UInt16.ofInt result }
  | .janusRtcpPort => { config with janusRtcpPort := UInt16.ofInt result }
  | .janusRtcpListen => { config with janusRtcpListen := UInt16.ofInt result }
  | .bitrate => { config with bitrateKbps := UInt32.ofInt result }
  | .keyframe => { config with keyframeSeconds := UInt32.ofInt result }

/-- The assignments of a text. -/
def AppConfig.setText (config : AppConfig) (o : TextOpt) (value : List UInt8) : AppConfig :=
  match o with
  | .device => { config with device := value }
  | .listen => { config with listen := value }
  | .webrtc => { config with webrtcBackend := value }
  | .janusHost => { config with janusHost := value }
  | .encoder => { config with encoder := value }

/-- How `app_config_parse` ends: it calls `exit`, or it returns; with what it has printed to `stderr`. -/
inductive Outcome
  | exit (status : ℕ) (printed : List UInt8)
  | ret (result : ℤ) (config : AppConfig) (printed : List UInt8)
  deriving DecidableEq, Repr

/-- What an option with its value does: it changes the configuration, or ends the parsing. -/
def setOpt (bits : ℕ) (config : AppConfig) (o : Opt) (value : List UInt8) : Except Outcome AppConfig :=
  match o with
  | .number o =>
    match parseLong bits value o.name with
    | .ok result => .ok (config.setNumber o result)
    | .error printed => .error (.exit 2 printed)
  | .text o =>
    if o = .webrtc ∧ value ≠ ascii "native" ∧ value ≠ ascii "libpeer" ∧ value ≠ ascii "janus" then
      .error (.ret (-1) config
        (ascii "invalid --webrtc '" ++ value ++ ascii "' (native, libpeer or janus)\n"))
    else .ok (config.setText o value)

/-! ### Parsing -/

/-- The check of the numbers behind the loop, which is the same in every build. -/
def AppConfig.InRange (config : AppConfig) : Prop :=
  ¬ (config.width < 2 ∨ 4096 < config.width ∨ config.height < 2 ∨ 4096 < config.height ∨ config.fps = 0 ∨
    120 < config.fps ∨ config.httpPort = 0 ∨ config.udpBasePort = 0 ∨ config.bitrateKbps = 0 ∨
      config.keyframeSeconds = 0)

instance (config : AppConfig) : Decidable config.InRange :=
  inferInstanceAs (Decidable (¬ _))

/-- The checks behind the loop. -/
def appConfigCheck (build : Build) (config : AppConfig) : Outcome :=
  if ¬ config.InRange then
    .ret (-1) config (ascii ("invalid configuration: dimensions, fps, ports, bitrate " ++
      "and keyframe interval must be positive and in range\n"))
  else
    match build with
    | .janus =>
      if config.webrtcBackend ≠ ascii "janus" then
        .ret (-1) config (ascii ("this binary is the Janus transport build (camstream-janus). " ++
          "Use camstream for native WebRTC or camstream-libpeer for " ++
          "libpeer, with --webrtc native or --webrtc libpeer.\n"))
      else if config.janusRtpPort = 0 ∨ config.janusRtcpPort = 0 ∨ config.janusRtcpListen = 0 then
        .ret (-1) config (ascii ("invalid Janus ports: --janus-rtp-port, " ++
          "--janus-rtcp-port and --janus-rtcp-listen must be nonzero\n"))
      else .ret 0 config []
    | .libpeer =>
      if config.webrtcBackend ≠ ascii "libpeer" then
        .ret (-1) config (ascii ("this binary is the libpeer build (camstream-libpeer). " ++
          "Use camstream for native WebRTC or camstream-janus for the Janus transport.\n"))
      else .ret 0 config []
    | .native =>
      if config.webrtcBackend ≠ ascii "native" then
        .ret (-1) config (ascii ("this binary is the native WebRTC build (camstream). The ") ++
          config.webrtcBackend ++ ascii " transport is a separate binary: " ++
          (if config.webrtcBackend = ascii "libpeer" then ascii "make libpeer && make camstream-libpeer"
            else ascii "make camstream-janus") ++ ascii "\n")
      else .ret 0 config []

/-- `app_config_parse` on the arguments behind the name of the program. -/
def appConfigParse (build : Build) (bits : ℕ) (config : AppConfig) : List (List UInt8) → Outcome
  | [] => appConfigCheck build config
  | arg :: args =>
    if arg = ascii "-h" ∨ arg = ascii "--help" then .ret 1 config []
    else if arg = ascii "-V" ∨ arg = ascii "--version" then .exit 0 []
    else if arg = ascii "-t" ∨ arg = ascii "--test" then
      appConfigParse build bits { config with useTestSource := true } args
    else if arg = ascii "-v" ∨ arg = ascii "--verbose" then
      appConfigParse build bits { config with verbose := true } args
    else
      match findOpt arg with
      | none => .ret (-1) config (ascii "unknown option: " ++ arg ++ ascii " (try --help)\n")
      | some (o, some value) =>
        match setOpt bits config o value with
        | .ok config => appConfigParse build bits config args
        | .error outcome => outcome
      | some (o, none) =>
        match args with
        | [] => .exit 2 (ascii "missing value for " ++ arg ++ ascii "\n")
        | value :: args =>
          match setOpt bits config o value with
          | .ok config => appConfigParse build bits config args
          | .error outcome => outcome

end Camstream
