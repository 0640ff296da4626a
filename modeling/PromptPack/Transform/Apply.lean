import PromptPack.Config.Settings
import PromptPack.Source.SourceFile
import PromptPack.Transform.Comments
import PromptPack.Transform.Markdown

/-! The transforms that are on, in a fixed order: comments, white space, markdown. -/

namespace PromptPack.Transform

def markdownExtensions : List String := ["md", "markdown"]

def applyChars (extension : String) (settings : Settings) (cs : List Char) : List Char :=
  let cs := if settings.stripComments.truthy then stripComments extension cs else cs
  let cs := if settings.reduceWhitespace.truthy then reduceWhitespace cs else cs
  if settings.minifyMarkdown.truthy && markdownExtensions.contains extension then
    minifyMarkdown settings.stripHeadings.truthy settings.stripBlockquotes.truthy cs
  else cs

def apply (content extension : String) (settings : Settings) : String :=
  String.ofList (applyChars (SourceFile.normalize extension) settings content.toList)

end PromptPack.Transform
