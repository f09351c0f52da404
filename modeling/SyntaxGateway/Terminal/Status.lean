import SyntaxGateway.Language.Basic
import SyntaxGateway.Terminal.Style
import SyntaxGateway.Terminal.Table

/-!
# What the command line shows

Status lines, each with a sign in front that says what it is about, and the table of languages. Each
text ends with its last line break.
-/

namespace SyntaxGateway.Terminal

/-- What is being started. -/
def started (color : Bool) (text : String) : String :=
  s!"🚀 {Style.banner.apply color text}\n"

/-- What has been done. -/
def done (color : Bool) (text : String) : String :=
  s!"✅ {Style.ok.apply color text}\n"

/-- What went wrong. -/
def wrong (color : Bool) (text : String) : String :=
  s!"❌ {Style.failure.apply color text}\n"

/-- A value under its name. -/
def info (color : Bool) (label value : String) : String :=
  let sign := Style.marker.apply color "ℹ️"
  s!"{sign} {Style.label.apply color label}: {value}\n"

/-- The title of a section, with an empty line in front. -/
def heading (color : Bool) (title : String) : String :=
  s!"\n━{Style.banner.apply color title}━\n"

/-- The row of a language in the table of languages. -/
def languageRow (name category serviceId : String) (extensions : List String) : List String :=
  [name, category, serviceId, " ".intercalate (extensions.map ("." ++ ·))]

/-- The table of languages from its rows, or nothing if there are none. -/
def languageTable (rows : List (List String)) : String :=
  if rows.isEmpty then "" else Table.render ["Language", "Type", "Service ID", "Extensions"] rows

/-- The table of the languages of these entries. -/
def tableOfEntries (entries : List Language.Entry) : String :=
  languageTable (entries.map fun e => languageRow e.name e.category.text e.serviceId e.extensions)

end SyntaxGateway.Terminal
