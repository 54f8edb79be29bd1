/-
  LinkedData.Archive.Files — history and contents in one file tree.

  Mementos and blobs have a directory each, anywhere in the tree; where the two overlap, each
  sees what the other did.
-/

import LinkedData.Blob.Files
import LinkedData.Memento.Files

namespace LinkedData

structure FileArchive where
  files : FileTree
  /-- The directory of the mementos. -/
  mementos : Path
  /-- The directory of the blobs. -/
  blobs : Path

namespace FileArchive

/-- An answer with the files as they are then. -/
def keep {α : Type} (a : FileArchive) (r : Except StorageError α × FileTree) :
    Except StorageError α × FileArchive :=
  (r.1, { a with files := r.2 })

instance : MementoStore FileArchive :=
  ⟨fun a id t r => a.keep (MementoFiles.put a.mementos a.files id t r),
   fun a id => MementoFiles.list a.mementos a.files id,
   fun a id t => MementoFiles.get a.mementos a.files id t,
   fun a id t => a.keep (MementoFiles.delete a.mementos a.files id t)⟩

instance : BlobStore FileArchive :=
  ⟨fun a content mime => a.keep (BlobFiles.store a.blobs a.files content mime),
   fun a location => BlobFiles.get a.blobs a.files location⟩

end FileArchive

end LinkedData
