import Docwright.Job

/-!
# The reference index

The reference documents are read from a folder, an index is built over them and
saved in a folder of its own, which is made if it is missing. Without documents
there is nothing to build. No failure is caught on the way.

What the index service stores in that folder is left out: to save the index is a
request that succeeds or fails and changes nothing on the disk.
-/

namespace Docwright.ReferenceIndex

open Job

structure Settings where
  documentFolder : String := "./metadata"
  indexFolder : String := "./rag_index"
  deriving Repr

def run (settings : Settings) : Job Unit := do
  if !(← hasItem settings.documentFolder) then
    say s!"Error: Metadata directory '{settings.documentFolder}' not found."
  else
    say s!"Loading documents from '{settings.documentFolder}'..."
    ask (.readDocuments settings.documentFolder)
    let documents ← ofAnswer (← get).services.documents
    if documents.isEmpty then
      say s!"No documents found in '{settings.documentFolder}'."
    else
      say s!"Loaded {documents.length} document(s)."
      say "Building RAG index..."
      ask (.buildIndex documents)
      ofAnswer (← get).services.indexBuild
      say s!"Persisting index to '{settings.indexFolder}'..."
      if !(← hasItem settings.indexFolder) then makeFolders settings.indexFolder
      ask (.saveIndex settings.indexFolder)
      ofAnswer (← get).services.indexSave
      say "RAG index built and persisted successfully."

end Docwright.ReferenceIndex
