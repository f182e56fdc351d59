/-!
# Signals

The standard signals of Linux. Real-time signals have no name here: nothing that the host sends or
reports uses them.
-/

namespace AppHost

inductive Signal where
  | hup | int | quit | ill | trap | abrt | bus | fpe | kill | usr1 | segv | usr2
  | pipe | alrm | term
  | stkflt | chld | cont | stop | tstp | ttin | ttou | urg | xcpu | xfsz | vtalrm
  | prof | winch | io
  | pwr | sys
  deriving DecidableEq, Repr, Inhabited

namespace Signal

def all : List Signal :=
  [.hup, .int, .quit, .ill, .trap, .abrt, .bus, .fpe, .kill, .usr1, .segv, .usr2, .pipe, .alrm,
    .term, .stkflt, .chld, .cont, .stop, .tstp, .ttin, .ttou, .urg, .xcpu, .xfsz, .vtalrm, .prof,
    .winch, .io, .pwr, .sys]

def name : Signal → String
  | .hup => "SIGHUP" | .int => "SIGINT" | .quit => "SIGQUIT" | .ill => "SIGILL" | .trap => "SIGTRAP"
  | .abrt => "SIGABRT" | .bus => "SIGBUS" | .fpe => "SIGFPE" | .kill => "SIGKILL"
  | .usr1 => "SIGUSR1" | .segv => "SIGSEGV" | .usr2 => "SIGUSR2" | .pipe => "SIGPIPE"
  | .alrm => "SIGALRM" | .term => "SIGTERM" | .stkflt => "SIGSTKFLT" | .chld => "SIGCHLD"
  | .cont => "SIGCONT" | .stop => "SIGSTOP" | .tstp => "SIGTSTP" | .ttin => "SIGTTIN"
  | .ttou => "SIGTTOU" | .urg => "SIGURG" | .xcpu => "SIGXCPU" | .xfsz => "SIGXFSZ"
  | .vtalrm => "SIGVTALRM" | .prof => "SIGPROF" | .winch => "SIGWINCH"
  | .io => "SIGIO" | .pwr => "SIGPWR" | .sys => "SIGSYS"

def ofNumber? (n : Nat) : Option Signal := if n = 0 then none else all[n - 1]?

def ofName? (name : String) : Option Signal := all.find? (·.name == name)

/-- What a process that does not handle the signal does when it arrives. -/
inductive Disposition where
  | terminate
  | ignore
  | suspend
  | resume
  deriving DecidableEq, Repr

def disposition : Signal → Disposition
  | .chld | .urg | .winch => .ignore
  | .stop | .tstp | .ttin | .ttou => .suspend
  | .cont => .resume
  | _ => .terminate

end Signal

end AppHost
