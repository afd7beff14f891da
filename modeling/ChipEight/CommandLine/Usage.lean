import ChipEight.CommandLine.Parser

namespace ChipEight.CommandLine

def usage : String :=
  "\n".intercalate [
    "Runs a Chip-8 rom in the terminal",
    "",
    "Usage: chip8 [OPTIONS] <ROM>",
    "",
    "Arguments:",
    "  <ROM>  Path to the rom image",
    "",
    "Options:",
    "  --hz <HZ>                    Instructions executed per second [default: 500]",
    "  --timer-hz <TIMER_HZ>        Timer decrements and frames per second [default: 60]",
    "  --max-steps <MAX_STEPS>      Stop after this many instructions",
    "  --fast-forward               Ignore the clock and run as fast as possible",
    "  --memory-size <MEMORY_SIZE>  Bytes of addressable memory [default: 4096]",
    "  --start <START>              Address the rom is loaded at and starts from [default: 512]",
    "  --permissive                 Skip over unknown opcodes instead of stopping",
    "  --keys <KEYS>                Key presses handed to the program, in order",
    "  --debug-display              Print frames as a numbered grid",
    "  --dump                       Print the register table when the program stops",
    "  --log-level <LOG_LEVEL>      off, error, warn, info, debug or trace [default: warn]",
    "  -h, --help                   Print help",
    "  -V, --version                Print version"]

def Inquiry.reply : Inquiry → String
  | .help => usage
  | .version => "chip8 0.1.0"

def Refusal.message : Refusal → String
  | .asked inquiry => inquiry.reply
  | .unknownArgument => "error: unexpected argument found"
  | .missingValue => "error: a value is required but none was supplied"
  | .badValue => "error: invalid value for an option"
  | .unneededValue => "error: unexpected value for a flag"
  | .givenTwice => "error: an argument cannot be used multiple times"
  | .missingRom => "error: the following required arguments were not provided: <ROM>"

end ChipEight.CommandLine
