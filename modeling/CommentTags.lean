import CommentTags.Main
import CommentTags.Proofs.Extraction.Comments
import CommentTags.Proofs.Extraction.Fields
import CommentTags.Proofs.Extraction.Names
import CommentTags.Proofs.Extraction.Rebuilt
import CommentTags.Proofs.Extraction.Report
import CommentTags.Proofs.Tag.Depth
import CommentTags.Proofs.Tag.Json
import CommentTags.Proofs.Tag.Links
import CommentTags.Proofs.Tag.Pending
import CommentTags.Proofs.Token.Quotes
import CommentTags.Proofs.Token.Uses
