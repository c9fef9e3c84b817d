import RigPack.CommandLine.Arguments

/-! What the program says about itself. -/

namespace RigPack
namespace CommandLine

def versionText : String :=
  "cmdent 0.1.0\n"

def Verb.about : Verb → String
  | compile => "Compile an entity and write its artifacts under an output directory"
  | fingerprint => "Compile an entity in memory and print the artifact fingerprint"

/-- Two columns. The second one starts two blanks after the longest entry of the first. -/
def table (rows : List (String × String)) : String :=
  let width := (rows.map fun (left, _) => left.length).foldl max 0
  String.join (rows.map fun (left, right) =>
    left ++ String.ofList (List.replicate (width + 2 - left.length) ' ') ++ right ++ "\n")

def helpRow : String × String :=
  ("  -h, --help", "Print help")

def OptionRule.text (r : OptionRule) : String :=
  r.name ++ " <" ++ r.placeholder ++ ">"

def Verb.usage (v : Verb) : String :=
  v.about ++ "\n\nUsage: cmdent " ++ v.name ++ " [OPTIONS]"
    ++ String.join ((v.options.filter OptionRule.required).map fun r => " " ++ r.text)
    ++ "\n\nOptions:\n"
    ++ table (v.options.map (fun r => ("      " ++ r.text, r.about)) ++ [helpRow])

def usage : String :=
  "Usage: cmdent <COMMAND>\n\nCommands:\n"
    ++ table (Verb.all.map (fun v => ("  " ++ v.name, v.about))
      ++ [("  help", "Print this message or the help of the given subcommand(s)")])
    ++ "\nOptions:\n" ++ table [helpRow, ("  -V, --version", "Print version")]

end CommandLine
end RigPack
