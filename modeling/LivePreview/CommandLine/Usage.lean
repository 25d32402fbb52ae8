import LivePreview.CommandLine.Reader

/-!
# Help

What is printed when a command line is not carried out: help, if it was asked for,
or else the reason.
-/

namespace LivePreview.CommandLine

def usageText : String :=
  "Usage: folio [OPTIONS] <COMMAND>\n\n" ++
  "Commands:\n" ++
  "  preview <FILE>  Compile and render a document once [aliases: p]\n" ++
  "  watch <FILE>    Recompile whenever the document changes on disk [aliases: w]\n" ++
  "  export <FILE>   Export the document to PDF, SVG or PNG [aliases: e]\n" ++
  "  help            Print this message\n"

namespace Rejection

def isAnswer : Rejection → Bool
  | .help => true
  | .version => true
  | _ => false

def reason : Rejection → String
  | .help => "help was asked for"
  | .version => "the version was asked for"
  | .nothingAsked => "nothing was asked for"
  | .missingCommand => "a command is missing"
  | .unknownCommand => "there is no such command"
  | .missingFile => "the document is missing"
  | .unknownOption => "unexpected argument"
  | .repeated => "an option was given more than once"
  | .badValue => "an option has no value, or one that cannot be chosen"
  | .malformedValue => "a value cannot be read"
  | .needlessValue => "a value was given to an option that takes none"

end Rejection

end LivePreview.CommandLine
