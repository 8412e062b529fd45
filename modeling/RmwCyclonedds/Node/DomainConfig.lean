import RmwCyclonedds.Node.Domains
import RmwCyclonedds.Library.Xml

/-! The configuration of a domain, read as the XML it is meant to be. -/
namespace RmwCyclonedds
open Library.Xml

def setting (name value : Text) : Node := .element name [] [.text value]

def peerElement (address : Text) : Node := .element "Peer".toList [("address".toList,address)] []

def multicastOff : Node := .element "General".toList [] [setting "AllowMulticast".toList "false".toList]

def discoveryOff (pid : Nat) : Node := .element "Discovery".toList [] [setting "ParticipantIndex".toList "none".toList,
  setting "Tag".toList ("ros_discovery_off_".toList ++ (toString pid).toList)]

/-- Discovery with peers, of which none are mentioned if there are none. -/
def discoveryOn (peers : List Text) : Node := .element "Discovery".toList [] <|
  setting "ParticipantIndex".toList "auto".toList :: setting "MaxAutoParticipantIndex".toList "32".toList ::
    if peers.isEmpty then [] else [.element "Peers".toList [] (peers.map peerElement)]

def domainElement (settings : List Node) : Node := .element "CycloneDDS".toList [] [.element "Domain".toList [] settings]

/-- What a discovery range stands for. -/
def chosenSettings (pid : Nat) (options : DiscoveryOptions) : List Node :=
  match options.automaticDiscoveryRange with
  | .notSet | .systemDefault => []
  | .off => [domainElement [multicastOff,discoveryOff pid]]
  | .localhost => [domainElement [multicastOff,discoveryOn ("localhost".toList :: options.staticPeers)]]
  | .subnet => [domainElement [discoveryOn options.staticPeers]]

def AutomaticDiscoveryRange.usesPeers : AutomaticDiscoveryRange → Bool
  | .localhost | .subnet => true
  | _ => false

/-! ### The configuration as written settings -/

private theorem write_with (name : Text) {children : List Node} (h : children ≠ []) :
    (Node.element name [] children).write = '<' :: name ++ ['>'] ++ writeAll children ++ ('<' :: '/' :: name ++ ['>']) := by
  obtain ⟨child,children,rfl⟩ := List.exists_cons_of_ne_nil h
  rw [Node.write]
  simp only [List.flatMap_nil, List.isEmpty_cons, Bool.false_eq_true, if_false, List.append_assoc, List.cons_append,
    List.nil_append]

private theorem write_setting (name value : Text) :
    (setting name value).write = '<' :: name ++ ['>'] ++ value ++ ('<' :: '/' :: name ++ ['>']) := by
  rw [setting, write_with name (List.cons_ne_nil _ _), writeAll, Node.write, writeAll, List.append_nil]

private theorem write_multicastOff :
    multicastOff.write = "<General><AllowMulticast>false</AllowMulticast></General>".toList := by
  decide

private theorem write_participantIndex (value : Text) : (setting "ParticipantIndex".toList value).write =
    "<ParticipantIndex>".toList ++ value ++ "</ParticipantIndex>".toList := write_setting _ _

private theorem write_tag (value : Text) : (setting "Tag".toList value).write =
    "<Tag>".toList ++ value ++ "</Tag>".toList := write_setting _ _

private theorem write_discovery {children : List Node} (h : children ≠ []) :
    (Node.element "Discovery".toList [] children).write =
      "<Discovery>".toList ++ writeAll children ++ "</Discovery>".toList := write_with _ h

private theorem write_peers {children : List Node} (h : children ≠ []) :
    (Node.element "Peers".toList [] children).write =
      "<Peers>".toList ++ writeAll children ++ "</Peers>".toList := write_with _ h

private theorem write_domain {settings : List Node} (h : settings ≠ []) : (domainElement settings).write =
    "<CycloneDDS><Domain>".toList ++ writeAll settings ++ "</Domain></CycloneDDS>".toList := by
  have hdomain : (Node.element "Domain".toList [] settings).write =
      "<Domain>".toList ++ writeAll settings ++ "</Domain>".toList := write_with _ h
  have hroot : (domainElement settings).write = "<CycloneDDS>".toList ++
      writeAll [.element "Domain".toList [] settings] ++ "</CycloneDDS>".toList := write_with _ (List.cons_ne_nil _ _)
  have hopen : "<CycloneDDS><Domain>".toList = "<CycloneDDS>".toList ++ "<Domain>".toList := by
    simp only [← String.toList_append, String.reduceAppend]
  have hclose : "</Domain></CycloneDDS>".toList = "</Domain>".toList ++ "</CycloneDDS>".toList := by
    simp only [← String.toList_append, String.reduceAppend]
  rw [hroot, writeAll, writeAll, hdomain, hopen, hclose]
  simp only [List.append_assoc, List.append_nil]

private theorem write_peer (peer : Text) : (peerElement peer).write =
    "<Peer address=\"".toList ++ peer ++ "\"/>".toList := by
  rw [peerElement, Node.write]
  simp only [List.flatMap_cons, List.flatMap_nil, writeAttribute, List.append_assoc, List.cons_append]
  rfl

private theorem writeAll_peers (peers : List Text) : writeAll (peers.map peerElement) =
    peers.flatMap fun peer => "<Peer address=\"".toList ++ peer ++ "\"/>".toList := by
  induction peers with
  | nil => rfl
  | cons peer peers ih => rw [List.map_cons, writeAll, write_peer, ih, List.flatMap_cons]

private theorem write_discoveryOff (pid : Nat) : (discoveryOff pid).write =
    "<Discovery><ParticipantIndex>none</ParticipantIndex>".toList ++ "<Tag>ros_discovery_off_".toList ++
      (toString pid).toList ++ "</Tag>".toList ++ "</Discovery>".toList := by
  have hindex : "<Discovery><ParticipantIndex>none</ParticipantIndex>".toList = "<Discovery>".toList ++
      ("<ParticipantIndex>".toList ++ "none".toList ++ "</ParticipantIndex>".toList) := by
    simp only [← String.toList_append, String.reduceAppend]
  have htag : "<Tag>ros_discovery_off_".toList = "<Tag>".toList ++ "ros_discovery_off_".toList := by
    simp only [← String.toList_append, String.reduceAppend]
  rw [discoveryOff, write_discovery (List.cons_ne_nil _ _), writeAll, writeAll, writeAll, write_participantIndex, write_tag,
    hindex, htag]
  simp only [List.append_assoc, List.append_nil]

private theorem write_discoveryOn (peers : List Text) : (discoveryOn peers).write =
    "<Discovery><ParticipantIndex>auto</ParticipantIndex>".toList ++
      "<MaxAutoParticipantIndex>32</MaxAutoParticipantIndex>".toList ++
      (if peers.isEmpty then [] else "<Peers>".toList ++ writeAll (peers.map peerElement) ++ "</Peers>".toList) ++
      "</Discovery>".toList := by
  have hindex : "<Discovery><ParticipantIndex>auto</ParticipantIndex>".toList = "<Discovery>".toList ++
      ("<ParticipantIndex>".toList ++ "auto".toList ++ "</ParticipantIndex>".toList) := by
    simp only [← String.toList_append, String.reduceAppend]
  have hmax : (setting "MaxAutoParticipantIndex".toList "32".toList).write =
      "<MaxAutoParticipantIndex>32</MaxAutoParticipantIndex>".toList := rfl
  rw [discoveryOn, write_discovery (List.cons_ne_nil _ _), writeAll, writeAll, write_participantIndex, hmax, hindex]
  cases peers with
  | nil => simp only [List.isEmpty_nil, if_true, writeAll, List.append_assoc, List.append_nil]
  | cons peer peers =>
    simp only [List.isEmpty_cons, Bool.false_eq_true, if_false]
    rw [writeAll, writeAll, write_peers (by simp)]
    simp only [List.append_assoc, List.append_nil]

private theorem close_config : "</Discovery></Domain></CycloneDDS>,".toList =
    "</Discovery>".toList ++ "</Domain></CycloneDDS>".toList ++ [','] := by
  have hcomma : [','] = ",".toList := rfl
  rw [hcomma]
  simp only [← String.toList_append, String.reduceAppend]

private theorem domainConfig_off (pid : Nat) (peers : List Text) :
    domainConfig pid ⟨.off,peers⟩ = (domainElement [multicastOff,discoveryOff pid]).write ++ [','] := by
  have hconfig : domainConfig pid ⟨.off,peers⟩ = "<CycloneDDS><Domain>".toList ++
      "<General><AllowMulticast>false</AllowMulticast></General>".toList ++
      ("<Discovery><ParticipantIndex>none</ParticipantIndex>".toList ++ "<Tag>ros_discovery_off_".toList ++
        (toString pid).toList ++ "</Tag>".toList) ++ [] ++ "</Discovery></Domain></CycloneDDS>,".toList := rfl
  rw [hconfig, write_domain (List.cons_ne_nil _ _), writeAll, writeAll, writeAll, write_multicastOff, write_discoveryOff,
    close_config]
  simp only [List.append_assoc, List.append_nil]

private theorem domainConfig_localhost (pid : Nat) (peers : List Text) : domainConfig pid ⟨.localhost,peers⟩ =
    (domainElement [multicastOff,discoveryOn ("localhost".toList :: peers)]).write ++ [','] := by
  have hconfig : domainConfig pid ⟨.localhost,peers⟩ = "<CycloneDDS><Domain>".toList ++
      "<General><AllowMulticast>false</AllowMulticast></General>".toList ++
      ("<Discovery><ParticipantIndex>auto</ParticipantIndex>".toList ++
        "<MaxAutoParticipantIndex>32</MaxAutoParticipantIndex>".toList) ++
      ("<Peers>".toList ++ "<Peer address=\"localhost\"/>".toList ++
        peers.flatMap (fun peer => "<Peer address=\"".toList ++ peer ++ "\"/>".toList) ++ "</Peers>".toList) ++
      "</Discovery></Domain></CycloneDDS>,".toList := by
    simp only [domainConfig, AutomaticDiscoveryRange.settings, Bool.or_true, Bool.and_false, Bool.not_true, if_true,
      Bool.false_eq_true, if_false]
  have hlocalhost : (peerElement "localhost".toList).write = "<Peer address=\"localhost\"/>".toList := rfl
  rw [hconfig, write_domain (List.cons_ne_nil _ _), writeAll, writeAll, writeAll, write_multicastOff, write_discoveryOn,
    List.map_cons, writeAll, hlocalhost, writeAll_peers, close_config]
  simp only [List.isEmpty_cons, Bool.false_eq_true, if_false, List.append_assoc, List.append_nil]

private theorem domainConfig_subnet (pid : Nat) (peers : List Text) :
    domainConfig pid ⟨.subnet,peers⟩ = (domainElement [discoveryOn peers]).write ++ [','] := by
  have hconfig : domainConfig pid ⟨.subnet,peers⟩ = "<CycloneDDS><Domain>".toList ++ [] ++
      ("<Discovery><ParticipantIndex>auto</ParticipantIndex>".toList ++
        "<MaxAutoParticipantIndex>32</MaxAutoParticipantIndex>".toList) ++
      (if peers.isEmpty then [] else "<Peers>".toList ++ [] ++
        peers.flatMap (fun peer => "<Peer address=\"".toList ++ peer ++ "\"/>".toList) ++ "</Peers>".toList) ++
      "</Discovery></Domain></CycloneDDS>,".toList := by
    cases peers <;> rfl
  rw [hconfig, write_domain (List.cons_ne_nil _ _), writeAll, writeAll, write_discoveryOn, writeAll_peers, close_config]
  simp only [List.append_assoc, List.append_nil]

/-! ### What the settings consist of -/

private theorem digit_plain {c : Char} (h : c.isDigit = true) : legal c ∧ c ≠ '<' ∧ c ≠ '&' ∧ c ≠ '\r' := by
  rw [Char.isDigit, Bool.and_eq_true, decide_eq_true_iff, decide_eq_true_iff] at h
  have hlo : 48 ≤ c.toNat := h.1
  have hhi : c.toNat ≤ 57 := h.2
  have hne {d : Char} (hd : d.toNat < 48) : c ≠ d := by
    rintro rfl
    omega
  refine ⟨?_,?_,hne (by decide),hne (by decide)⟩
  · simp only [legal, within, List.any_cons, Bool.or_eq_true, Bool.and_eq_true, decide_eq_true_iff]
    omega
  · rintro rfl
    exact absurd hhi (by decide)

private theorem tag_plain (pid : Nat) : PlainText ("ros_discovery_off_".toList ++ (toString pid).toList) := by
  intro c hc
  rcases List.mem_append.mp hc with hc | hc
  · have hall : PlainText "ros_discovery_off_".toList := by decide
    exact hall c hc
  · have hdigits : (toString pid).toList = Nat.toDigits 10 pid := by simp
    exact digit_plain (Nat.isDigit_of_mem_toDigits (by decide) (by decide) (hdigits ▸ hc))

private theorem setting_regular {name value : Text} (hname : Name name) (hvalue : PlainText value) :
    (setting name value).Regular := ⟨hname,nofun,List.nodup_nil,hvalue,trivial⟩

private theorem multicastOff_regular : multicastOff.Regular :=
  ⟨by decide,nofun,List.nodup_nil,setting_regular (by decide) (by decide),trivial⟩

private theorem discoveryOff_regular (pid : Nat) : (discoveryOff pid).Regular :=
  ⟨by decide,nofun,List.nodup_nil,setting_regular (by decide) (by decide),setting_regular (by decide) (tag_plain pid),trivial⟩

private theorem peers_regular (peers : List Text) : RegularAll (peers.map peerElement) := by
  induction peers with
  | nil => trivial
  | cons peer peers ih =>
    have hnames : ∀ a ∈ [("address".toList,peer)], Name a.1 := by
      intro a ha
      rw [List.mem_singleton.mp ha]
      show Name "address".toList
      decide
    exact ⟨⟨by decide,hnames,List.nodup_singleton _,trivial⟩,ih⟩

private theorem discoveryOn_regular (peers : List Text) : (discoveryOn peers).Regular := by
  refine ⟨by decide,nofun,List.nodup_nil,setting_regular (by decide) (by decide),setting_regular (by decide) (by decide),?_⟩
  split
  · trivial
  · exact ⟨⟨by decide,nofun,List.nodup_nil,peers_regular peers⟩,trivial⟩

private theorem domainElement_regular {settings : List Node} (h : RegularAll settings) :
    (domainElement settings).Regular :=
  ⟨by decide,nofun,List.nodup_nil,⟨by decide,nofun,List.nodup_nil,h⟩,trivial⟩

private theorem peers_plain_iff (peers : List Text) :
    PlainValuesAll (peers.map peerElement) ↔ ∀ peer ∈ peers, PlainValue peer := by
  induction peers with
  | nil => exact iff_of_true trivial (fun _ h => absurd h List.not_mem_nil)
  | cons peer peers ih =>
    rw [List.map_cons, PlainValuesAll, ih, List.forall_mem_cons]
    constructor
    · rintro ⟨⟨hpeer,-⟩,hpeers⟩
      exact ⟨hpeer _ List.mem_cons_self,hpeers⟩
    · rintro ⟨hpeer,hpeers⟩
      refine ⟨⟨?_,trivial⟩,hpeers⟩
      intro a ha
      rw [List.mem_singleton.mp ha]
      exact hpeer

private theorem setting_plain (name value : Text) : (setting name value).PlainValues := ⟨nofun,trivial,trivial⟩

private theorem multicastOff_plain : multicastOff.PlainValues := ⟨nofun,setting_plain _ _,trivial⟩

private theorem discoveryOn_plain_iff (peers : List Text) :
    (discoveryOn peers).PlainValues ↔ ∀ peer ∈ peers, PlainValue peer := by
  rw [← peers_plain_iff]
  constructor
  · rintro ⟨-,-,-,h⟩
    split at h
    · next hnil =>
      rw [List.isEmpty_iff.mp hnil]
      trivial
    · exact h.1.2
  · intro h
    refine ⟨nofun,setting_plain _ _,setting_plain _ _,?_⟩
    split
    · trivial
    · exact ⟨⟨nofun,h⟩,trivial⟩

private theorem domainElement_plain_iff (settings : List Node) :
    (domainElement settings).PlainValues ↔ PlainValuesAll settings := by
  constructor
  · rintro ⟨-,⟨-,h⟩,-⟩
    exact h
  · intro h
    exact ⟨nofun,⟨nofun,h⟩,trivial⟩

/-- The configuration is well formed and says what was chosen, exactly if the addresses that go into it have only
characters that mean themselves in the value of an attribute. -/
theorem domainConfig_faithful_iff (pid : Nat) (options : DiscoveryOptions) :
    scan (domainConfig pid options) = some (eventsAll (chosenSettings pid options)) ↔
      (options.automaticDiscoveryRange.usesPeers → ∀ peer ∈ options.staticPeers, PlainValue peer) := by
  obtain ⟨range,peers⟩ := options
  have hread (settings : List Node) (hregular : RegularAll settings) (hconfig : domainConfig pid ⟨range,peers⟩ =
      (domainElement settings).write ++ [',']) (hchosen : chosenSettings pid ⟨range,peers⟩ = [domainElement settings]) :
      scan (domainConfig pid ⟨range,peers⟩) = some (eventsAll (chosenSettings pid ⟨range,peers⟩)) ↔
        PlainValuesAll settings := by
    rw [hconfig, hchosen, eventsAll, eventsAll, List.append_nil, ← domainElement_plain_iff]
    exact scan_write_iff (domainElement_regular hregular)
  cases range with
  | notSet => exact iff_of_true rfl nofun
  | systemDefault => exact iff_of_true rfl nofun
  | off =>
    rw [hread [multicastOff,discoveryOff pid] ⟨multicastOff_regular,discoveryOff_regular pid,trivial⟩ (domainConfig_off pid peers) rfl]
    exact iff_of_true ⟨multicastOff_plain,⟨nofun,setting_plain _ _,setting_plain _ _,trivial⟩,trivial⟩ nofun
  | localhost =>
    rw [hread [multicastOff,discoveryOn ("localhost".toList :: peers)]
      ⟨multicastOff_regular,discoveryOn_regular _,trivial⟩ (domainConfig_localhost pid peers) rfl]
    have hlocalhost : PlainValue "localhost".toList := by decide
    constructor
    · rintro ⟨-,h,-⟩ -
      exact (List.forall_mem_cons.mp ((discoveryOn_plain_iff _).mp h)).2
    · intro h
      exact ⟨multicastOff_plain,(discoveryOn_plain_iff _).mpr (List.forall_mem_cons.mpr ⟨hlocalhost,h rfl⟩),trivial⟩
  | subnet =>
    rw [hread [discoveryOn peers] ⟨discoveryOn_regular _,trivial⟩ (domainConfig_subnet pid peers) rfl]
    constructor
    · rintro ⟨h,-⟩ -
      exact (discoveryOn_plain_iff _).mp h
    · intro h
      exact ⟨(discoveryOn_plain_iff _).mpr (h rfl),trivial⟩

/-- A static peer whose address ends its element and sets a tag for the domain. -/
theorem injected_tag : ¬∀ (pid : Nat) (options : DiscoveryOptions),
    scan (domainConfig pid options) = some (eventsAll (chosenSettings pid options)) := by
  intro h
  have hread := h 1 ⟨.subnet,["a\"/></Peers><Tag>t</Tag><Peers><Peer address=\"b".toList]⟩
  revert hread
  decide +kernel

end RmwCyclonedds
