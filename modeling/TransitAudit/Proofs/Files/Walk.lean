import TransitAudit.Files.Resolve

/-! Walking through a tree of files. A segment that is no dot leads to the entry of that name, and a
text that was put into a file is read back from it. -/
namespace TransitAudit.FileSystem

theorem follow_nil (fs : FileSystem) (links : Nat) (here : FoundEntry) :
    fs.follow links here [] = .ok here := by
  rw [follow]

theorem follow_dot (fs : FileSystem) (links : Nat) {here : FoundEntry}
    (hd : here.entry.isDirectory = true) (rest : List String) :
    fs.follow links here ("." :: rest) = fs.follow links here rest := by
  rw [follow, hd]
  simp

theorem follow_entry (fs : FileSystem) (links : Nat) {here : FoundEntry} {s : String}
    {e : FileEntry} (hd : here.entry.isDirectory = true) (hs : s ∉ ["", ".", ".."])
    (hl : s.utf8ByteSize ≤ longestName) (he : here.entry.child? s = some e)
    (hlink : ∀ target, e ≠ .link target) (rest : List String) :
    fs.follow links here (s :: rest) = fs.follow links ⟨here.location ++ [s], e⟩ rest := by
  simp only [List.mem_cons, not_or] at hs
  rw [follow, hd, he]
  simp [hs, Nat.not_lt.mpr hl]

theorem follow_missing (fs : FileSystem) (links : Nat) {here : FoundEntry} {s : String}
    (hd : here.entry.isDirectory = true) (hs : s ∉ ["", ".", ".."])
    (hl : s.utf8ByteSize ≤ longestName) (he : here.entry.child? s = none) (rest : List String) :
    fs.follow links here (s :: rest) = .error .notFound := by
  simp only [List.mem_cons, not_or] at hs
  rw [follow, hd, he]
  simp [hs, Nat.not_lt.mpr hl]

/-- A relative path leads from the working directory along its segments. -/
theorem resolve_of_relative {fs : FileSystem} {path : String} {segments : List String}
    (hworking : fs.working = []) (hnul : '\x00' ∉ path.toList) (hne : path ≠ "")
    (hlength : path.utf8ByteSize ≤ longestPath) (hrelative : PathName.isAbsolute path = false)
    (hsegments : PathName.segments path = segments) :
    fs.resolve path = fs.follow linkLimit ⟨[], fs.root⟩ segments := by
  rw [resolve, if_neg hnul, if_neg hne, if_neg (Nat.not_lt.mpr hlength), hworking, hsegments]
  simp [place, FileEntry.at?, start, hrelative]

theorem readText_of_resolve {fs : FileSystem} {path text : String} {location : List String}
    (h : fs.resolve path = .ok ⟨location, .ofText text⟩) : fs.readText path = .ok text := by
  -- the bytes of a text are those of a text
  have htext : String.fromUTF8? text.toUTF8 = some text := by
    rw [String.fromUTF8?, dif_pos]
    rfl
  rw [readText, h]
  simp only [bind, Except.bind, FileEntry.ofText, htext]

end TransitAudit.FileSystem
