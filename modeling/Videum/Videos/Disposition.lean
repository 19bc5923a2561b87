import Videum.Common.HeaderFields
import Videum.Videos.Playback

/-!
# The names of downloads

`StorageService.getPresignedGetUrl` (`storage/storage.service.ts`) asks the
storage to answer a download with a `Content-Disposition` that has the file
name between quotation marks, as the uploader gave it.  This module says
which names a client reads out of it again.

## Main results

* `eval_getDownloadUrl` — what is asked for the download of a ready video.
* `survives_iff` — the names that come through.
* `download_name_iff` — the same of `getDownloadUrl`, for every file name a
  draft may have.
-/

namespace Videum.Videos

open Videum.Async
open Videum.Common

/-- The client reads an attachment with one parameter, the file name. -/
def Survives (charset : Charset) (url : PresignedGet) (filename : String) :
    Prop :=
  ∃ header said, url.disposition = some header ∧
    readValue (octets header) =
      some ⟨"attachment", [("filename", said)]⟩ ∧
    charset.decode said = some filename

theorem octets_append (a b : String) :
    octets (a ++ b) = octets a ++ octets b := by
  unfold octets
  rw [String.toList_append, List.flatMap_append]

/-- The octets of a disposition, the file name among them. -/
theorem octets_disposition (filename : String) :
    octets ("attachment; filename=\"" ++ filename ++ "\"") =
      octets "attachment" ++ 59 :: 32 ::
        (octets "filename" ++ 61 :: 34 :: (octets filename ++ [34])) := by
  have hbefore : octets "attachment; filename=\"" =
      octets "attachment" ++ 59 :: 32 :: (octets "filename" ++ [61, 34]) := by
    decide
  have hafter : octets "\"" = [34] := by decide
  rw [octets_append, octets_append, hbefore, hafter]
  simp only [List.append_assoc, List.cons_append, List.nil_append]

theorem isToken_attachment : IsToken (octets "attachment") :=
  ⟨by decide, by decide⟩

theorem isToken_filename : IsToken (octets "filename") :=
  ⟨by decide, by decide⟩

/-- What a client reads out of a disposition: the quoted string that begins
with the file name, and what is left. -/
theorem readValue_disposition (filename : String) :
    readValue (octets ("attachment; filename=\"" ++ filename ++ "\"")) =
      (readQuoted false (octets filename ++ [34])).bind fun (said, rest) =>
        (readParameters rest).map fun parameters =>
          ⟨"attachment", ("filename", said) :: parameters⟩ := by
  have htype : lowerName (octets "attachment") = "attachment" := by decide
  have hname : lowerName (octets "filename") = "filename" := by decide
  rw [octets_disposition, readValue_quoted isToken_attachment isToken_filename,
    htype, hname]

/-- Nothing is left when the quoted string goes up to the last mark. -/
theorem readValue_disposition_iff (filename : String) (said : List UInt8) :
    readValue (octets ("attachment; filename=\"" ++ filename ++ "\"")) =
        some ⟨"attachment", [("filename", said)]⟩ ↔
      readQuoted false (octets filename ++ [34]) = some (said, []) := by
  have hiff := readValue_quoted_iff isToken_attachment isToken_filename
    (octets filename) said
  rw [← octets_disposition] at hiff
  exact hiff

/-- A name comes through when each of its characters stands for itself, and
the client reads it in the charset it was sent in. -/
theorem survives_iff (charset : Charset) (storageKey : String)
    {filename : String} (hname : filename ≠ "") :
    Survives charset (getPresignedGetUrl storageKey (some filename))
        filename ↔
      (∀ c ∈ filename.toList, StandsForItself c) ∧
        charset.decode (octets filename) = some filename := by
  have hdisposition :
      (getPresignedGetUrl storageKey (some filename)).disposition =
        some ("attachment; filename=\"" ++ filename ++ "\"") := by
    have htruthy : truthy (some filename) = some filename := by
      simp [truthy, hname]
    show (truthy (some filename)).map _ = _
    rw [htruthy]
    rfl
  rw [← quoted_iff charset filename]
  constructor
  · rintro ⟨header, said, hheader, hvalue, hdecode⟩
    obtain rfl := Option.some.inj (hdisposition.symm.trans hheader)
    exact ⟨said, (readValue_disposition_iff filename said).1 hvalue, hdecode⟩
  · rintro ⟨said, hquoted, hdecode⟩
    exact ⟨_, said, hdisposition,
      (readValue_disposition_iff filename said).2 hquoted, hdecode⟩

/-! ## `getDownloadUrl` -/

section Downloads

variable {uuid : String → Option String} {m : Moment} {s : Store}
  {video : Video} {publicId : String}

/-- The URL for a ready video carries its file name, whoever asks. -/
theorem eval_getDownloadUrl (hunique : UniquePublicIds s.videos)
    (hvideo : video ∈ s.videos) (hready : video.status = .ready)
    (huuid : uuid publicId = some video.public_id)
    (requesterId : Option Nat) :
    (getDownloadUrl uuid publicId requesterId).eval Store.exec m s =
      (.ok (getPresignedGetUrl video.storage_key
        (some video.original_filename)), s) := by
  have hfound : visibleVideo uuid publicId requesterId s.videos = .ok video := by
    have hfind : s.videos.find? (fun r =>
        r.public_id == video.public_id && visible requesterId r) =
          some video := by
      apply find?_of_unique hvideo
      · simp [visible, hready]
      · intro r hr hboth
        exact hunique r hr video hvideo
          (beq_iff_eq.1 (Bool.and_eq_true_iff.1 hboth).1)
    unfold visibleVideo
    rw [huuid]
    dsimp only
    rw [hfind]
  unfold getDownloadUrl
  rw [Prog.eval_bind, eval_findVisibleVideo hunique, hfound]
  dsimp only
  rw [if_neg (not_not_intro hready)]
  rfl

/--
**The file name of a download.**  For every file name a draft may have, and
every ready video with it: the client reads an attachment with this file name
and nothing else out of what `getDownloadUrl` asks for exactly when the name
has no quotation mark, no backslash and no control character but tabs, and
the client's charset reads its UTF-8 as the name.
-/
theorem download_name_iff (hunique : UniquePublicIds s.videos)
    (hvideo : video ∈ s.videos) (hready : video.status = .ready)
    (huuid : uuid publicId = some video.public_id)
    (requesterId : Option Nat) (dto : CreateVideoDto)
    (hname : video.original_filename = dto.filename) :
    ∃ url,
      (getDownloadUrl uuid publicId requesterId).eval Store.exec m s =
        (.ok url, s) ∧
      (∀ charset, Survives charset url dto.filename ↔
        (∀ c ∈ dto.filename.toList, StandsForItself c) ∧
          charset.decode (octets dto.filename) = some dto.filename) ∧
      (Survives utf8 url dto.filename ↔
        ∀ c ∈ dto.filename.toList, StandsForItself c) ∧
      (Survives latin1 url dto.filename ↔
        ∀ c ∈ dto.filename.toList, StandsForItself c ∧ c.toNat < 128) := by
  have hne : dto.filename ≠ "" := by
    intro hempty
    have hlength := dto.filename_length.1
    rw [hempty] at hlength
    exact absurd hlength (by decide)
  have hiff := fun charset => survives_iff charset video.storage_key hne
  refine ⟨_, eval_getDownloadUrl hunique hvideo hready huuid requesterId, ?_⟩
  rw [hname]
  refine ⟨hiff, ?_, ?_⟩
  · rw [hiff utf8, and_iff_left (utf8_decode_octets dto.filename)]
  · rw [hiff latin1, latin1_decode_octets_iff, ← forall₂_and]

end Downloads

/-- A ready video whose file was called `filename`. -/
def readyAs (filename : String) : Video :=
  { uploadingOf 1 "a" with original_filename := filename, status := .ready }

/-- A draft with this file name. -/
def draftAs (filename : String)
    (h : 1 ≤ validatedLength filename ∧ validatedLength filename ≤ 255) :
    CreateVideoDto where
  title := "Lecture"
  filename := filename
  content_type := "video/webm"
  size_bytes := 8
  title_length := by decide
  filename_length := h
  content_type_length := by decide
  size_range := by decide

/-- A table with this video alone. -/
def storeOf (filename : String) : Store := { videos := [readyAs filename] }

theorem download_name_iff_of_readyAs :
    ∃ url,
      (getDownloadUrl some "a" none).eval Store.exec { now := 0 }
          (storeOf "holidays.mp4") = (.ok url, storeOf "holidays.mp4") ∧
      Survives utf8 url "holidays.mp4" := by
  have hvideo : readyAs "holidays.mp4" ∈ (storeOf "holidays.mp4").videos :=
    List.mem_singleton_self _
  have huuid : some "a" = some (readyAs "holidays.mp4").public_id := rfl
  obtain ⟨url, heval, _, hutf8, _⟩ := download_name_iff (by decide) hvideo rfl
    huuid none (draftAs "holidays.mp4" (by decide)) rfl
  have hchars : ("holidays.mp4".toList.all fun c => StandsForItself c) =
      true := by decide
  exact ⟨url, heval, hutf8.2 fun c hc =>
    of_decide_eq_true (List.all_eq_true.1 hchars c hc)⟩

/-- With a quotation mark in the name the client reads no such attachment, a
backslash is lost, and a name may bring a parameter of its own. -/
theorem download_name_broken :
    (∃ url,
      (getDownloadUrl some "a" none).eval Store.exec { now := 0 }
          (storeOf "a\"b.mp4") = (.ok url, storeOf "a\"b.mp4") ∧
      url.disposition = some "attachment; filename=\"a\"b.mp4\"" ∧
      ∀ charset, ¬ Survives charset url "a\"b.mp4") ∧
    readValue (octets "attachment; filename=\"a\\b.mp4\"") =
      some ⟨"attachment", [("filename", octets "ab.mp4")]⟩ ∧
    readValue (octets "attachment; filename=\"a\"; filename=\"b.exe\"") =
      some ⟨"attachment",
        [("filename", octets "a"), ("filename", octets "b.exe")]⟩ ∧
    ¬ ∀ (dto : CreateVideoDto) (storageKey : String),
      Survives utf8 (getPresignedGetUrl storageKey (some dto.filename))
        dto.filename := by
  have hlost : ∀ charset storageKey, ¬ Survives charset
      (getPresignedGetUrl storageKey (some "a\"b.mp4")) "a\"b.mp4" := by
    intro charset storageKey hsurvives
    have hchars := ((survives_iff charset storageKey (by decide)).1 hsurvives).1
    exact (hchars '"' (by decide)).1 rfl
  have heval := eval_getDownloadUrl (s := storeOf "a\"b.mp4") (m := { now := 0 })
    (by decide) (List.mem_singleton_self (readyAs "a\"b.mp4")) rfl
    (show some "a" = _ from rfl) none
  refine ⟨⟨_, heval, by decide, fun charset => hlost charset _⟩, ?_, ?_, ?_⟩
  · exact (readValue_disposition_iff "a\\b.mp4" (octets "ab.mp4")).2 (by decide)
  · have hfirst : readQuoted false
        (octets "a\"; filename=\"b.exe" ++ [34]) = some (octets "a",
          59 :: 32 :: (octets "filename" ++
            61 :: 34 :: (octets "b.exe" ++ [34]))) := by decide
    have hsecond : readQuoted false (octets "b.exe" ++ [34]) =
        some (octets "b.exe", []) := by decide
    apply (readValue_disposition "a\"; filename=\"b.exe").trans
    rw [hfirst]
    dsimp only [Option.bind_some]
    rw [readParameters_quoted isToken_filename, hsecond]
    dsimp only [Option.bind_some]
    rw [readParameters_empty]
    decide
  · intro hall
    exact hlost utf8 "videos/a/original"
      (hall (draftAs "a\"b.mp4" (by decide)) "videos/a/original")

end Videum.Videos
