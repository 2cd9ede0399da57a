/-
# Signature sources

`internal/signatures/registry.go`: the names of the built-in sources.
-/
import Mathlib.Data.List.Basic

namespace Arcsent.Signatures

def sourceMITREATTACK := "mitre_attack"
def sourceMITRECAPEC := "mitre_capec"
def sourceMITRECWE := "mitre_cwe"
def sourceNVD := "nvd"
def sourceOSV := "osv"
def sourceCISAKEV := "cisa_kev"
def sourceExploitDB := "exploit_db"
def sourceEPSS := "epss"
def sourceGHSA := "ghsa"

def knownSources : List String :=
  [sourceMITREATTACK, sourceMITRECAPEC, sourceMITRECWE, sourceNVD, sourceOSV, sourceCISAKEV,
    sourceExploitDB, sourceEPSS, sourceGHSA]

def defaultSources : List String :=
  [sourceMITREATTACK, sourceNVD, sourceOSV, sourceCISAKEV, sourceExploitDB]

def isKnownSource (id : String) : Bool := knownSources.contains id

end Arcsent.Signatures
