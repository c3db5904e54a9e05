import FlagSurvey.Machine.Directory

/-! The machine that trials run on: the programs that it brings along, and an empty folder to work in. -/
namespace FlagSurvey.Machine

def toolNames : List String :=
  ["basename", "cat", "dirname", "echo", "env", "expr", "false", "head", "kill", "ls", "mkdir",
    "nohup", "printf", "pwd", "rm", "seq", "setsid", "sh", "sleep", "sort", "tail", "tee", "test",
    "timeout", "touch", "tr", "true", "wc", "yes", "["]

def tools : Node :=
  .folder ([("bash", .tool "sh"), ("dash", .tool "sh")] ++ toolNames.map fun name => (name, .tool name))

def searchPath : List String := ["/usr/local/bin", "/usr/bin", "/bin"]

def standard : Directory where
  root := .folder
    [("bin", tools), ("dev", .folder [("null", .sink)]), ("etc", .folder [("hosts", .file [] false), ("passwd", .file [] false)]), ("home", .folder []),
      ("lib", .folder []), ("opt", .folder []), ("proc", .folder []), ("root", .folder []),
      ("tmp", .folder [("work", .folder [])]), ("var", .folder []),
      ("usr", .folder [("bin", tools), ("local", .folder [("bin", .folder [])])])]
  here := ["tmp", "work"]

end FlagSurvey.Machine
