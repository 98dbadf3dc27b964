import RustyDhcp.Dhcpv6.Restart
import RustyDhcp.Server.Console

/-! # The lines that the DHCPv6 server prints

A note is what a line tells, and its words, with a blank between them, are the line. -/

namespace RustyDhcp.Dhcpv6

/-- `{:?}` -/
def MsgType.debug : MsgType → String
  | solicit => "Solicit"
  | advertise => "Advertise"
  | request => "Request"
  | confirm => "Confirm"
  | renew => "Renew"
  | rebind => "Rebind"
  | reply => "Reply"
  | release => "Release"
  | decline => "Decline"
  | reconfigure => "Reconfigure"
  | informationRequest => "InformationRequest"
  | relayForward => "RelayForward"
  | relayReply => "RelayReply"

/-- `{:?}`, in capital letters. -/
def MsgType.upper (kind : MsgType) : Text := kind.debug.toList.map Char.toUpper

/-- `{:06x}` -/
def tidText (tid : U32) : Text :=
  let digits := Nat.toDigits 16 tid.toNat
  List.replicate (6 - digits.length) '0' ++ digits

/-- `chaddr` of a client ID, where there is a byte to print. -/
def clientText : Duid → Text
  | [] => "-".toList
  | byte :: rest => rest.foldl (fun acc byte => acc ++ ':' :: hexPair byte) (hexPair byte)

/-- One line about a packet. -/
inductive Note where
  | anonymous (tid : U32)
  | solicit (duid : Duid) (tid iaid : U32) (rapid : Bool)
  | committed (duid : Duid) (tid : U32) (ip : Ipv6Addr)
  | advertised (duid : Duid) (tid : U32) (ip : Ipv6Addr)
  | exhausted (duid : Duid) (tid : U32) (rapid : Bool) (used total : Nat)
  | incomplete (kind : MsgType) (duid : Duid) (tid : U32)
  | replied (kind : MsgType) (duid : Duid) (tid : U32) (want ip : Ipv6Addr)
  | refused (kind : MsgType) (duid : Duid) (tid : U32) (want : Ipv6Addr)
  | freed (kind : MsgType) (duid : Duid) (tid : U32)
  | noLease (kind : MsgType) (duid : Duid) (tid : U32)
  | ignored (kind : MsgType) (duid : Duid) (tid : U32)
  | unsupported (kind : MsgType) (tid : U32)
deriving DecidableEq

namespace Note

def phrase (words : List String) : List Text := words.map String.toList

def tidWord (tid : U32) : Text := "tid=".toList ++ tidText tid

/-- What a line begins with that names a client. -/
def heading (kind : MsgType) (duid : Duid) (tid : U32) : List Text :=
  ["v6".toList, kind.upper, "duid=".toList ++ clientText duid, tidWord tid]

def words : Note → List Text
  | anonymous tid =>
      ["v6".toList, "?".toList, tidWord tid] ++ phrase ["ignored", "(no", "client", "ID)"]
  | solicit duid tid iaid rapid =>
      heading .solicit duid tid ++ ["iaid=".toList ++ decimal iaid.toNat,
        "rapid=".toList ++ RustyDhcp.Note.flag rapid]
  | committed duid tid ip =>
      heading .solicit duid tid ++ ["->".toList, "REPLY".toList, ip.toText, "(rapid".toList,
        "commit)".toList]
  | advertised duid tid ip =>
      heading .solicit duid tid ++ ["->".toList, "ADVERTISE".toList, ip.toText]
  | exhausted duid tid rapid used total =>
      heading .solicit duid tid ++ ["->".toList,
        if rapid then "REPLY".toList else "ADVERTISE".toList, "nodata".toList,
        "(NoAddrsAvail,".toList, "pool".toList, decimal used ++ '/' :: decimal total,
        "used)".toList]
  | incomplete kind duid tid => heading kind duid tid ++ phrase ["ignored", "(no", "IA_NA)"]
  | replied kind duid tid want ip =>
      heading kind duid tid ++
        ["want=".toList ++ want.toText, "->".toList, "REPLY".toList, ip.toText]
  | refused kind duid tid want =>
      heading kind duid tid ++ ["want=".toList ++ want.toText] ++
        phrase ["->", "REPLY", "nodata", "(requested", "address", "not", "available)"]
  | freed kind duid tid => heading kind duid tid ++ phrase ["freed", "lease"]
  | noLease kind duid tid => heading kind duid tid ++ phrase ["no", "lease", "held"]
  | ignored kind duid tid =>
      heading kind duid tid ++ phrase ["ignored", "(server_id", "mismatch)"]
  | unsupported kind tid =>
      ["v6".toList, kind.debug.toList, tidWord tid] ++
        phrase ["ignored", "(unsupported", "message", "type)"]

/-- The line without its end. -/
def text (note : Note) : Text := [' '].intercalate note.words

example : (committed [2, 0xab] 0x1c (.new 0xfd00 0 0 0 0 0 0 1)).text =
    "v6 SOLICIT duid=02:ab tid=00001c -> REPLY fd00::1 (rapid commit)".toList := by decide

end Note

/-! ## Words without blanks -/

/-- A text without blanks and line breaks. -/
def Solid (text : Text) : Prop := text.any isWhitespace = false

instance (text : Text) : Decidable (Solid text) :=
  inferInstanceAs (Decidable (text.any isWhitespace = false))

namespace Solid

variable {text first second : Text}

theorem iff_forall : Solid text ↔ ∀ char ∈ text, isWhitespace char = false := by
  rw [Solid, List.any_eq_false]
  simp only [Bool.not_eq_true]

theorem of_plain (plain : ∀ char ∈ text, isPlain char = true) : Solid text :=
  iff_forall.mpr fun char member => isWhitespace_of_isPlain (plain char member)

theorem append (front : Solid first) (back : Solid second) : Solid (first ++ second) := by
  rw [iff_forall] at front back ⊢
  exact List.forall_mem_append.mpr ⟨front, back⟩

theorem not_mem {char : Char} (solid : Solid text) (blank : isWhitespace char = true) :
    char ∉ text := by
  intro member
  rw [iff_forall.mp solid char member] at blank
  cases blank

theorem decimal (number : Nat) : Solid (RustyDhcp.decimal number) :=
  of_plain fun _ => isPlain_of_mem_decimal

theorem address (ip : Ipv6Addr) : Solid ip.toText := of_plain fun _ => isPlain_of_mem_ipv6

theorem tidText (tid : U32) : Solid (Dhcpv6.tidText tid) := by
  apply of_plain
  intro char member
  rcases List.mem_append.mp member with padding | digits
  · rw [List.eq_of_mem_replicate padding]
    rfl
  · exact isPlain_of_mem_toDigits (by decide) (by decide) digits

end Solid

theorem clientText_cons (byte : UInt8) (rest : List UInt8) :
    clientText (byte :: rest) = duidText (byte :: rest) :=
  foldl_hexPair (hexPair byte) rest

theorem Solid.clientText (duid : Duid) : Solid (Dhcpv6.clientText duid) := by
  cases duid with
  | nil => decide
  | cons byte rest =>
      rw [clientText_cons]
      exact of_plain fun _ => isPlain_of_mem_duidText

namespace Note

theorem solid_debug (kind : MsgType) : Solid kind.debug.toList := by
  cases kind <;> decide

theorem solid_upper (kind : MsgType) : Solid kind.upper := by
  cases kind <;> decide

theorem solid_tidWord (tid : U32) : Solid (tidWord tid) :=
  Solid.append (by decide) (.tidText tid)

theorem solid_heading (kind : MsgType) (duid : Duid) (tid : U32) :
    ∀ word ∈ heading kind duid tid, Solid word := by
  have client : Solid ("duid=".toList ++ clientText duid) :=
    Solid.append (by decide) (.clientText duid)
  simp only [heading, List.forall_mem_cons, solid_upper, client, solid_tidWord, true_and]
  decide

theorem solid_words (note : Note) : ∀ word ∈ note.words, Solid word := by
  have named : ∀ {kind duid tid} {others : List Text}, (∀ word ∈ others, Solid word) →
      ∀ word ∈ heading kind duid tid ++ others, Solid word :=
    fun others => List.forall_mem_append.mpr ⟨solid_heading _ _ _, others⟩
  have wanted : ∀ ip : Ipv6Addr, Solid ("want=".toList ++ ip.toText) := fun ip =>
    Solid.append (by decide) (.address ip)
  cases note with
  | anonymous tid =>
      simp only [words, List.cons_append, List.forall_mem_cons, solid_tidWord, true_and]
      decide
  | solicit duid tid iaid rapid =>
      have number : Solid ("iaid=".toList ++ decimal iaid.toNat) :=
        Solid.append (by decide) (.decimal _)
      apply named
      simp only [List.forall_mem_cons, number, true_and]
      cases rapid <;> decide
  | committed duid tid ip =>
      apply named
      simp only [List.forall_mem_cons, Solid.address, true_and]
      decide
  | advertised duid tid ip =>
      apply named
      simp only [List.forall_mem_cons, Solid.address, true_and]
      decide
  | exhausted duid tid rapid used total =>
      have slash : Solid ['/'] := by decide
      have fraction : Solid (decimal used ++ '/' :: decimal total) :=
        (Solid.decimal used).append (slash.append (.decimal total))
      apply named
      simp only [List.forall_mem_cons, fraction, true_and]
      cases rapid <;> decide
  | replied kind duid tid want ip =>
      apply named
      simp only [List.forall_mem_cons, wanted, Solid.address, true_and]
      decide
  | refused kind duid tid want =>
      rw [words, List.append_assoc]
      apply named
      simp only [List.cons_append, List.forall_mem_cons, wanted, true_and]
      decide
  | incomplete => exact named (by decide)
  | freed => exact named (by decide)
  | noLease => exact named (by decide)
  | ignored => exact named (by decide)
  | unsupported kind tid =>
      simp only [words, List.cons_append, List.forall_mem_cons, solid_tidWord, solid_debug,
        true_and]
      decide

theorem words_ne_nil (note : Note) : note.words ≠ [] := by
  cases note <;> exact List.cons_ne_nil _ _

/-- The words of a line are told apart by the blanks. -/
theorem splitOn_text (note : Note) : note.text.splitOn ' ' = note.words :=
  List.splitOn_intercalate ' ' (fun word listed => (solid_words note word listed).not_mem rfl)
    (words_ne_nil note)

/-- No control character gets into a line. -/
theorem not_mem_text {char : Char} (note : Note) (blank : isWhitespace char = true)
    (other : char ≠ ' ') : char ∉ note.text := by
  intro member
  rcases of_mem_intercalate member with same | ⟨word, listed, inside⟩
  · exact other same
  · exact (solid_words note word listed).not_mem blank inside

end Note

end RustyDhcp.Dhcpv6
