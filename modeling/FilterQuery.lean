import FilterQuery.Main
import FilterQuery.Proofs.QueryCodec
import FilterQuery.Proofs.Expression
import FilterQuery.Proofs.Depth
import FilterQuery.Proofs.Enclosure
import FilterQuery.Proofs.Acceptance
import FilterQuery.Proofs.Recognition
import FilterQuery.Proofs.Conditions
import FilterQuery.Proofs.Placement
import FilterQuery.Proofs.Grafting
import FilterQuery.Proofs.Blame
import FilterQuery.Proofs.Image
import FilterQuery.Proofs.Flattening
import FilterQuery.Proofs.Agreement
import FilterQuery.Proofs.SingleConnective
import FilterQuery.Proofs.SessionHistory
import FilterQuery.Proofs.Nesting
import FilterQuery.Proofs.FirstFault
import FilterQuery.Proofs.LeafSyntax
import FilterQuery.Proofs.Tokenizing
import FilterQuery.Proofs.Brackets
import FilterQuery.Proofs.Reordering
import FilterQuery.Proofs.Undelimited
import FilterQuery.Proofs.SettingsText
