import UriExpansion.Main
import UriExpansion.Proofs.CommandLine.Outcomes
import UriExpansion.Proofs.Expansion.Flags
import UriExpansion.Proofs.Expansion.Joining
import UriExpansion.Proofs.Expansion.Members
import UriExpansion.Proofs.Expansion.Vanishing
import UriExpansion.Proofs.Json.NumberTexts
import UriExpansion.Proofs.ParamFile.Formats
import UriExpansion.Proofs.Template.Erasure
import UriExpansion.Proofs.Template.Positions
