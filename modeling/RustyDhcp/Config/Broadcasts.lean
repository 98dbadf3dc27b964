import Mathlib.Data.List.Nodup
import RustyDhcp.Config.DuplicateKeys

/-! # The configuration of the process

`main` goes on with the defaults where the file cannot be read or is refused, so
that it always has a configuration that passes its own check. -/

namespace RustyDhcp.Config

/-- The loop of `broadcasts`. -/
def addNew (out : List Ipv4Addr) (ip : Ipv4Addr) : List Ipv4Addr :=
  if out.contains ip then out else out ++ [ip]

/-- All broadcast destinations for replies, primary first. -/
def broadcasts (config : Config) : List Ipv4Addr :=
  config.extraBroadcastIps.foldl addNew [config.broadcastIp]

/-- The configuration that `main` works with; there is no text if the file cannot
be read. -/
def ofFile (lower : Lowercase) (text : Option Text) : Config :=
  match text with
  | none => .defaults
  | some text =>
      match parse lower text with
      | .ok config => config
      | .error _ => .defaults

theorem validate_ofFile (lower : Lowercase) (text : Option Text) :
    (ofFile lower text).validate = .ok (ofFile lower text) := by
  have standard : defaults.validate = .ok defaults := by decide
  cases text with
  | none => exact standard
  | some text =>
      rw [ofFile]
      cases parsed : parse lower text with
      | ok config => exact (parse_eq_ok_iff.mp parsed).2.2
      | error error => exact standard

/-! ## Broadcast addresses -/

variable {out : List Ipv4Addr} {ip other : Ipv4Addr}

theorem mem_addNew : other ∈ addNew out ip ↔ other ∈ out ∨ other = ip := by
  rw [addNew]
  split
  · rename_i listed
    constructor
    · exact .inl
    · intro found
      rcases found with member | rfl
      · exact member
      · exact List.contains_iff_mem.mp listed
  · rw [List.mem_append, List.mem_singleton]

theorem nodup_addNew (once : out.Nodup) : (addNew out ip).Nodup := by
  rw [addNew]
  split
  · exact once
  · rename_i new
    refine List.nodup_append.mpr ⟨once, List.nodup_singleton ip, ?_⟩
    intro first listed second same
    rw [List.mem_singleton.mp same]
    intro equal
    subst equal
    exact new (List.contains_iff_mem.mpr listed)

theorem prefix_addNew (out : List Ipv4Addr) (ip : Ipv4Addr) : out <+: addNew out ip := by
  rw [addNew]
  split
  · exact List.prefix_rfl
  · exact List.prefix_append _ _

theorem foldl_addNew (ips : List Ipv4Addr) (once : out.Nodup) :
    (ips.foldl addNew out).Nodup ∧ out <+: ips.foldl addNew out ∧
      ∀ other, other ∈ ips.foldl addNew out ↔ other ∈ out ∨ other ∈ ips := by
  induction ips generalizing out with
  | nil => exact ⟨once, List.prefix_rfl, fun other => by simp⟩
  | cons ip ips induction =>
      rcases induction (nodup_addNew once) with ⟨nodup, start, members⟩
      refine ⟨nodup, (prefix_addNew out ip).trans start, ?_⟩
      intro other
      rw [List.foldl_cons, members, mem_addNew, List.mem_cons, or_assoc]

variable (config : Config)

/-- No address is listed twice. -/
theorem nodup_broadcasts : config.broadcasts.Nodup :=
  (foldl_addNew _ (List.nodup_singleton _)).1

theorem mem_broadcasts_iff :
    ip ∈ config.broadcasts ↔ ip = config.broadcastIp ∨ ip ∈ config.extraBroadcastIps := by
  rw [broadcasts, (foldl_addNew _ (List.nodup_singleton _)).2.2, List.mem_singleton]

theorem broadcasts_ne_nil : config.broadcasts ≠ [] :=
  List.ne_nil_of_mem ((mem_broadcasts_iff config).mpr (.inl rfl))

end RustyDhcp.Config
