import DemoPages.Highlight.Highlighter
import DemoPages.Page
import DemoPages.Settings

/-!
# Tools

What a site is built with and may be exchanged for something else: a reader of page texts, a reader
of configurations, and a highlighter for each language and style.
-/

namespace DemoPages

/-- The tools that a site is built with. -/
structure Tools where
  reader : Markdown.Reader
  configuration : Settings.Reader
  highlighter : (language style : String) → Highlighter

/-- The tools of this program. -/
def Tools.own : Tools := ⟨Markdown.reader, Settings.Document.ofText, Highlighter.shading⟩

end DemoPages
