import WideMultiplier.Console.Disk

/-!
# A working directory and its surroundings

A disk to try sessions out on. Around the working directory stands what stands on every system:
directories, links, and files of the system. But for the command line of the program, no text of a
system declares a number, so what such a text says is left out. Sessions take any file system, and
what is proved of them does not rest on this one.
-/

namespace WideMultiplier

namespace Location

/-- The place of the working directory. The empty name in it is one that no path can spell. -/
def home : Location :=
  ["", "tmp"]

/-- The place where the running program shows itself. Its number is not known. -/
def process : Location :=
  ["", "proc"]

/-- The place where the running thread shows itself. Its number is not known. -/
def thread : Location :=
  "" :: "task" :: process

/-- The place where the first program of the system shows itself. -/
def first : Location :=
  ["1", "proc"]

/-- A directory that no path can spell, for files that only links lead to. -/
def cellar : Location :=
  [""]

/-- The place of a file that only links lead to. -/
def hidden (name : String) : Location :=
  name :: cellar

/-- The places of some names in a directory. -/
def within (parent : Location) (names : List String) : List Location :=
  names.map fun name => name :: parent

/-- The names of the texts that every running program shows about itself to all others. -/
def openRecords : List String :=
  ["cgroup", "cpuset", "limits", "mountinfo", "mounts", "oom_score", "schedstat", "stat", "statm",
    "status", "wchan"]

/-- The names of the texts that every running program shows about itself. -/
def records : List String :=
  openRecords ++ ["environ", "io", "maps", "personality", "smaps", "stack", "syscall"]

/-- The names of the directories in which every running program shows itself. -/
def shown : List String :=
  ["attr", "fd", "fdinfo", "net", "ns"]

/-- The directories that every system has. -/
def directories : List Location :=
  [[], cellar, home, process, thread, first] ++
    within [] ["boot", "dev", "etc", "home", "media", "mnt", "opt", "proc", "root", "run", "srv",
      "sys", "tmp", "usr", "var"] ++
    within ["dev"] ["pts", "shm"] ++
    within ["proc"] ["bus", "driver", "fs", "irq", "sys", "sysvipc", "tty"] ++
    within ["sys", "proc"] ["fs", "kernel", "net", "vm"] ++
    within process (["map_files", "task"] ++ shown) ++
    within first ["attr", "fd", "net", "ns", "task"] ++
    within thread shown ++
    within ["run"] ["lock"] ++
    within ["sys"] ["block", "bus", "class", "dev", "devices", "firmware", "fs", "kernel", "module",
      "power"] ++
    within ["usr"] ["bin", "games", "include", "lib", "lib64", "local", "sbin", "share", "src"] ++
    within ["local", "usr"] ["bin", "etc", "games", "include", "lib", "sbin", "share", "src"] ++
    within ["var"] ["backups", "cache", "lib", "local", "log", "mail", "opt", "spool", "tmp"]

/-- The links with which a running program or thread shows what it works with. -/
def ownLinks (place : Location) : List (Location × List String) :=
  [("cwd" :: place, home.reverse), ("root" :: place, []),
    ("exe" :: place, (hidden "program").reverse),
    ("0" :: "fd" :: place, (hidden "input").reverse),
    ("1" :: "fd" :: place, (hidden "output").reverse),
    ("2" :: "fd" :: place, (hidden "errors").reverse)]

/-- The links that every system has, each with the names on the way from the root to where it
leads. -/
def links : List (Location × List String) :=
  [(["bin"], ["usr", "bin"]), (["lib"], ["usr", "lib"]), (["lib64"], ["usr", "lib64"]),
    (["sbin"], ["usr", "sbin"]),
    (["fd", "dev"], ["proc", "self", "fd"]), (["stdin", "dev"], ["proc", "self", "fd", "0"]),
    (["stdout", "dev"], ["proc", "self", "fd", "1"]),
    (["stderr", "dev"], ["proc", "self", "fd", "2"]),
    (["self", "proc"], process.reverse), (["thread-self", "proc"], thread.reverse),
    (["mounts", "proc"], ["proc", "self", "mounts"]), (["net", "proc"], ["proc", "self", "net"]),
    (["mtab", "etc"], ["proc", "mounts"]), (["os-release", "etc"], ["usr", "lib", "os-release"]),
    (["lock", "var"], ["run", "lock"]), (["run", "var"], ["run"])] ++
  ownLinks process ++ ownLinks thread

/-- The files of the system. -/
def systemFiles : List (Location × SystemFile) :=
  [(["null", "dev"], .null), (["zero", "dev"], .zero), (["full", "dev"], .full),
    (["random", "dev"], .random), (["urandom", "dev"], .random), (["tty", "dev"], .terminal),
    (["ptmx", "dev"], .null),
    (hidden "program", .program), (hidden "input", .input), (hidden "output", .output),
    (hidden "errors", .errors),
    ("mem" :: process, .memory), ("mem" :: thread, .memory),
    ("comm" :: process, .text), ("comm" :: thread, .text), ("comm" :: first, .text),
    ("cmdline" :: process, .commandLine), ("cmdline" :: thread, .commandLine),
    ("cmdline" :: first, .record)] ++
  (within ["etc"] ["group", "hostname", "hosts", "issue", "passwd", "profile", "resolv.conf",
    "shadow", "shells"]).map (·, .text) ++
  [(["os-release", "lib", "usr"], .text)] ++
  (within ["proc"] ["buddyinfo", "cgroups", "cmdline", "consoles", "cpuinfo", "devices",
    "diskstats", "execdomains", "filesystems", "interrupts", "iomem", "ioports", "loadavg",
    "locks", "meminfo", "misc", "modules", "partitions", "softirqs", "stat", "swaps", "uptime",
    "version", "vmstat", "zoneinfo"]).map (·, .report) ++
  (within process records ++ within thread records ++ within first openRecords).map (·, .record) ++
  (within ("fdinfo" :: process) ["0", "1", "2"] ++
    within ("fdinfo" :: thread) ["0", "1", "2"]).map (·, .record) ++
  (within ["bin", "usr"] ["cat", "env", "ls", "sh"]).map (·, .program)

end Location

/-- Whether something stands where a path leads. -/
def Place.isThere : Place → Bool
  | .directory => true
  | .entry _ _ found => found.isSome

namespace Disk

/-- The disk that has some files in its working directory, by name, before a program that was
started with some arguments. -/
def ofFiles (files : List (String × List UInt8)) (arguments : List String) : Disk :=
  { directories := Location.directories
    links := Location.links
    systemFiles := Location.systemFiles
    files := files.map fun (name, content) => (name :: Location.home, content)
    home := Location.home
    arguments }

/-- Every link of the system leads to something. -/
theorem isThere_link : ∀ link ∈ Location.links,
    ((ofFiles [] []).walkWithin maxLinks [] link.2).toOption.any Place.isThere = true := by
  decide +kernel

end Disk

end WideMultiplier
