/-!
# Prompts for the manual

The table of contents is asked for from the overview of the project, and a
section from the overview, the table of contents and the title of the section.
-/

namespace Docwright.Manual

def contentsPrompt (overview : String) : String :=
  String.intercalate "\n" [
    "Based on the following project overview, generate a detailed Table of Contents " ++
      "(ToC) for a comprehensive technical manual.",
    "This technical manual is for a C++ software project related to clock tree " ++
      "synthesis (CTS), likely named TritonCTS or similar.",
    "The manual should be structured into logical parts and sections (e.g., using H1 " ++
      "for parts, H2 for main sections within parts, and H3 for sub-sections if " ++
      "appropriate).",
    "Each major H2 section described in the ToC should eventually correspond to " ++
      "content of approximately 1000-1500 words.",
    "Output the Table of Contents ONLY in Markdown format. Ensure section titles are " ++
      "descriptive and suitable for a technical audience.",
    "",
    "Project Overview:",
    s!"{overview}",
    "",
    "---",
    "Generate the Markdown Table of Contents. Do not include any introductory or " ++
      "concluding remarks, only the ToC itself.",
    ""]

def sectionPrompt (title overview contents : String) : String :=
  String.intercalate "\n" [
    s!"You are writing a section titled '{title}' for a technical manual about a C++ " ++
      "Clock Tree Synthesis (CTS) software project (likely TritonCTS).",
    "The overall project context is provided by the project overview below.",
    "The complete Table of Contents for the manual is also provided for context on " ++
      "where this section fits.",
    "",
    "Project Overview:",
    s!"{overview}",
    "",
    "Complete Table of Contents:",
    s!"{contents}",
    "",
    s!"Your task is to generate ONLY the Markdown content for the section titled: '{title}'",
    "",
    "Guidelines for this section:",
    "- Content should be highly detailed, technically accurate, and comprehensive for " ++
      "this specific topic.",
    "- Adhere to a dry, rigorous, and professional engineering manual style. Avoid " ++
      "conversational language, fluff, or filler words.",
    "- The target audience is engineers who will use or develop this software.",
    "- Aim for a word count appropriate for a significant manual section (e.g., " ++
      "1000-1500 words, or what naturally fits the topic depth). Use subheadings (H3, " ++
      "H4, etc.) within this section as needed for structure.",
    "- Start your output directly with the content for this section. Do NOT repeat " ++
      s!"the section title '{title}' as a top-level H1 or H2 header if it is already " ++
      "implied as the main topic of this generation; focus on the substance.",
    "- Ensure the information is consistent with the provided project overview and " ++
      "its place in the ToC.",
    "",
    s!"Section Content for '{title}':",
    ""]

end Docwright.Manual
