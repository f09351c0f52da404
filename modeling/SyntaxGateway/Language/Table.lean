import SyntaxGateway.Language.Signatures

/-!
# The known languages

The table in the order in which it is listed, and the look-up by name. Two entries share their
signatures and the name under which the service knows them: the two kinds of shell.
-/

namespace SyntaxGateway.Language

/-! ## Entries -/

/-- The known languages, in the order in which they are listed. -/
def table : List Entry :=
  [⟨"Bash", .programming, "bash", ["bash"], [".bashrc", ".bash_profile", ".bash_logout"], ["bash"],
      Signatures.shell⟩,
    ⟨"C#", .programming, "csharp", ["cs", "csx"], [], [], Signatures.csharp⟩,
    ⟨"C++", .programming, "cpp", ["cpp", "cc", "cxx", "c++", "hpp", "hh", "hxx", "h", "inc"], [],
      [],
      Signatures.cpp⟩,
    ⟨"Go", .programming, "go", ["go"], [], [], Signatures.go⟩,
    ⟨"Java", .programming, "java", ["java"], [], [], Signatures.java⟩,
    ⟨"JavaScript", .programming, "javascript", ["js", "mjs", "cjs", "jsx"], ["Jakefile"],
      ["node", "nodejs"], Signatures.javascript⟩,
    ⟨"PHP", .programming, "php", ["php", "phtml", "php3", "php4", "php5", "inc"], [], ["php"],
      Signatures.php⟩,
    ⟨"Python", .programming, "python", ["py", "pyw", "pyi"], ["SConstruct", "SConscript"],
      ["python", "python2", "python3"], Signatures.python⟩,
    ⟨"Ruby", .programming, "ruby", ["rb", "rake", "gemspec"], ["Rakefile", "Gemfile", "Guardfile"],
      ["ruby"], Signatures.ruby⟩,
    ⟨"Shell", .programming, "bash", ["sh", "zsh", "ksh"], [".profile", ".zshrc"],
      ["sh", "zsh", "ksh", "dash"], Signatures.shell⟩]

/-- The languages of the table, in order. -/
def known : List Language := table.map (·.language)

/-! ## Names -/

/-- Two texts that differ in the case of ASCII letters at most. -/
def sameName (a b : String) : Bool := a.toList.map Char.toLower = b.toList.map Char.toLower

/-- The first entry whose name or service name is `name`, whatever its case. -/
def find? (name : String) : Option Entry :=
  table.find? fun e => sameName e.name name || sameName e.serviceId name

end SyntaxGateway.Language
