import SourceTidy.Change
import SourceTidy.Config.Basic
import SourceTidy.DocBlock.Normal
import SourceTidy.Indent
import SourceTidy.Tabs

/-!
# Tidying the lines of a file

The enabled changes are made in a fixed order: tabs, then the unit of
indentation as it is found after that, then the documentation block.
-/

namespace SourceTidy
namespace Config

def tidyTabs (config : Config) (lines : List Text) : List Text × Bool :=
  if config.replaceTabs then Tabs.expand config.indentWidth lines else (lines, false)

def tidyIndent (config : Config) (lines : List Text) : List Text × Bool :=
  if config.fixIndent then
    Indent.changeUnit (Indent.infer lines) config.indentWidth lines
  else
    (lines, false)

def tidyDocu (config : Config) (lines : List Text) : DocBlock.Edited Bool :=
  if config.fixDocu then
    DocBlock.normalize config.keyTable lines
  else
    { lines := lines, result := .ok false }

/-- Make all enabled changes.  If the documentation block has a fault the lines
are left as they were when it was found. -/
def tidy (config : Config) (lines : List Text) : DocBlock.Edited Record :=
  let expanded := config.tidyTabs lines
  let indented := config.tidyIndent expanded.1
  let edited := config.tidyDocu indented.1
  { lines := edited.lines
    result := edited.result.map fun changed =>
      ((Record.empty.addIf expanded.2 .tabs).addIf indented.2 .indent).addIf changed .docu }

end Config
end SourceTidy
