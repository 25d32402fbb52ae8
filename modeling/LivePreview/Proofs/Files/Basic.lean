import LivePreview.Proofs.Texts

/-!
# Writes on their way

A request to write or to read a file takes effect at some moment between the request and its
end.  When the time for an answer is over a write goes on by itself: the `BusyFiles` holds the texts
of the files, and the writes whose requests are over.
-/

namespace LivePreview

/-- The texts of the files, and the writes that have outlived their requests. -/
structure BusyFiles where
  texts : Texts
  late : List Write

namespace BusyFiles

/-- What has come of a request so far. -/
inductive Standing where
  | begun
  /-- Its write has landed. -/
  | landed
  /-- It has read this text. -/
  | read (text : String)
  deriving DecidableEq

/-- A request takes effect: it writes what it is to write, or reads the file it is to read. -/
inductive Proceeds (write? : Option Write) (source? : Option Path) (files : BusyFiles) :
    Standing → Standing → BusyFiles → Prop
  | lands {w : Write} (writes : write? = some w) :
      Proceeds write? source? files .begun .landed { files with texts := files.texts.store w }
  | reads {path : Path} {text : String} (asks : source? = some path)
      (found : files.texts.read path = some text) :
      Proceeds write? source? files .begun (.read text) files

inductive Drifts (files : BusyFiles) (w : Write) : BusyFiles → Prop
  | lands (before : List Write) {after : List Write} (waits : files.late = before ++ w :: after) :
      Drifts files w ⟨files.texts.store w, before ++ after⟩

variable {write? : Option Write} {source? : Option Path} {files files' : BusyFiles}
  {standing standing' : Standing} {w v : Write}

theorem Proceeds.late (proceeds : Proceeds write? source? files standing standing' files') :
    files'.late = files.late := by
  cases proceeds <;> rfl

theorem Proceeds.begun (proceeds : Proceeds write? source? files standing standing' files') :
    standing = .begun := by
  cases proceeds <;> rfl

theorem Proceeds.not_begun (proceeds : Proceeds write? source? files standing standing' files') :
    standing' ≠ .begun := by
  cases proceeds <;> exact fun same => nomatch same

theorem Proceeds.texts (proceeds : Proceeds write? source? files standing standing' files') :
    (∃ w, write? = some w ∧ standing' = .landed ∧ files'.texts = files.texts.store w) ∨
      files'.texts = files.texts := by
  cases proceeds with
  | lands writes => exact .inl ⟨_, writes, rfl, rfl⟩
  | reads => exact .inr rfl

theorem Drifts.mem (drifts : Drifts files w files') : w ∈ files.late := by
  cases drifts with
  | lands before waits => exact waits ▸ List.mem_append_cons_self

theorem Drifts.late (drifts : Drifts files w files') (mem : v ∈ files'.late) : v ∈ files.late := by
  cases drifts with
  | lands before waits =>
    rw [waits]
    simp only [List.mem_append, List.mem_cons] at mem ⊢
    exact mem.imp_right .inr

theorem Drifts.texts (drifts : Drifts files w files') : files'.texts = files.texts.store w := by
  cases drifts
  rfl

end BusyFiles

end LivePreview
