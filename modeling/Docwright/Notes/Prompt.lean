import Docwright.Text.Lines

/-!
# Prompts for notes

The prompt for the notes of a file names the number of lines to aim at, a tenth
of the lines of the file and at least ten. The prompt for an addendum holds the
notes and what was found in the reference index.
-/

namespace Docwright.Notes

def targetLines (content : String) : Nat :=
  max 10 ((Text.lines content.toList).length / 10)

def notesPrompt (content path : String) : String :=
  let target := targetLines content
  String.intercalate "\n" [
    "Please generate precise, detailed technical notes for the following code file: " ++
      s!"{path}.",
    "The notes should be in Markdown format.",
    "Aim to summarize such that you output approximately 1 line of markdown for every " ++
      "10 lines of code, but prioritize clarity, accuracy, and completeness of the " ++
      s!"explanation. The target output is roughly {target} lines of Markdown.",
    "Focus on explaining the purpose, functionality, key components, and any complex " ++
      "logic within the code.",
    "Avoid fluff and filler words. The output should be suitable for a dry " ++
      "engineering manual.",
    "",
    "Here is the code:",
    "```",
    s!"{content}",
    "```",
    "",
    "Provide only the Markdown notes.",
    ""]

def addendumPrompt (notes found path : String) : String :=
  String.intercalate "\n" [
    "You are tasked with creating a concise addendum to existing technical notes for " ++
      s!"the code file: {path}.",
    "You have been provided with:",
    "1. The original notes generated solely from the code.",
    "2. Context retrieved from a RAG system (documentation PDFs).",
    "",
    "Your goal is to synthesize information from the RAG retrieval that provides " ++
      "*additional, relevant context or clarification* to the original notes.",
    "The addendum should be 10-20 lines of Markdown.",
    "If the RAG retrieval does not offer significant new insights or is irrelevant to " ++
      "the code, output only the exact phrase \"NO_ADDENDUM_NEEDED\" and nothing else.",
    "Do not repeat information already clear from the original notes. Focus on what " ++
      "the RAG context *adds*.",
    "",
    "Original Notes:",
    "---",
    s!"{notes}",
    "---",
    "",
    "RAG Retrieved Context:",
    "---",
    s!"{found}",
    "---",
    "",
    "Based on the RAG context, generate a focused addendum (10-20 lines of Markdown). " ++
      "If no valuable addendum can be made, output only the exact phrase " ++
      "\"NO_ADDENDUM_NEEDED\".",
    ""]

end Docwright.Notes
